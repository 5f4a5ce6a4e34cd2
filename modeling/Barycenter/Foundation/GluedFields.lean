import Mathlib.Data.List.Basic

/-!
# Fields that are glued without a mark between them

A field is a name, a separator and a stamp of fixed length.  A stamp has no
separator, a name may have one.  When fields are written one after the other,
nothing says where a stamp ends and the next name begins, except for the length
of the stamp; so a name that contains the separator and a stamp reads like two
fields.  Two lists of fields have the same text exactly when both arise from a
third one by gluing neighbours into one name.
-/

namespace Barycenter

namespace GluedFields

abbrev Field (α : Type) := List α × List α

variable {α : Type} {separator : α} {length : Nat}

def text (separator : α) (fields : List (Field α)) : List α :=
  fields.flatMap fun field => field.1 ++ separator :: field.2

/-- The second list is the first one with some neighbours glued into one name. -/
inductive Glued (separator : α) : List (Field α) → List (Field α) → Prop where
  | nil : Glued separator [] []
  | keep (field : Field α) {fine coarse : List (Field α)} (rest : Glued separator fine coarse) :
      Glued separator (field :: fine) (field :: coarse)
  | glue (field : Field α) {name stamp : List α} {fine coarse : List (Field α)}
      (rest : Glued separator fine ((name, stamp) :: coarse)) :
      Glued separator (field :: fine)
        ((field.1 ++ separator :: (field.2 ++ name), stamp) :: coarse)

def Stamped (separator : α) (length : Nat) (fields : List (Field α)) : Prop :=
  ∀ field ∈ fields, field.2.length = length ∧ separator ∉ field.2

def Alike (separator : α) (length : Nat) (left right : List (Field α)) : Prop :=
  ∃ fine, Stamped separator length fine ∧ Glued separator fine left ∧ Glued separator fine right

theorem Glued.same_text {fine coarse : List (Field α)} (glued : Glued separator fine coarse) :
    text separator fine = text separator coarse := by
  induction glued with
  | nil => rfl
  | keep field rest induction =>
      simp only [text, List.flatMap_cons] at induction ⊢
      rw [induction]
  | glue field rest induction =>
      simp only [text, List.flatMap_cons] at induction ⊢
      rw [induction]
      simp

theorem Glued.refl (separator : α) (fields : List (Field α)) : Glued separator fields fields := by
  induction fields with
  | nil => exact .nil
  | cons field rest induction => exact .keep field induction

variable {left right : List (Field α)}

theorem Alike.symm (alike : Alike separator length left right) :
    Alike separator length right left :=
  have ⟨fine, stamped, first, second⟩ := alike
  ⟨fine, stamped, second, first⟩

theorem name_within {leftName rightName leftStamp leftRest rightRest : List α}
    (leftFree : separator ∉ leftStamp) (shorter : leftName.length < rightName.length)
    (same : leftName ++ separator :: (leftStamp ++ leftRest) =
      rightName ++ separator :: rightRest) :
    ∃ name, rightName = leftName ++ separator :: (leftStamp ++ name) ∧
      leftRest = name ++ separator :: rightRest := by
  obtain ⟨more, longer, rest⟩ | ⟨more, longer, -⟩ := List.append_eq_append_iff.mp same
  · cases more with
    | nil => simp [longer] at shorter
    | cons first more =>
        obtain ⟨rfl, stamps⟩ := List.cons.inj rest
        obtain ⟨name, within, rests⟩ | ⟨surplus, within, rests⟩ := List.append_eq_append_iff.mp stamps
        · exact ⟨name, by rw [longer, within], rests⟩
        · cases surplus with
          | nil => exact ⟨[], by simp_all⟩
          | cons first surplus =>
              obtain ⟨rfl, -⟩ := List.cons.inj rests
              simp [within] at leftFree
  · simp only [longer, List.length_append] at shorter
    omega

variable {field : Field α} {rest : List (Field α)}

theorem Stamped.tail
    (stamped : Stamped separator length (field :: rest)) : Stamped separator length rest :=
  fun other member => stamped other (List.mem_cons_of_mem _ member)

theorem Stamped.cons (here : field.2.length = length ∧ separator ∉ field.2)
    (stamped : Stamped separator length rest) : Stamped separator length (field :: rest) := by
  intro other member
  rcases List.mem_cons.mp member with rfl | later
  · exact here
  · exact stamped other later

theorem Stamped.renamed {name other stamp : List α}
    (stamped : Stamped separator length ((name, stamp) :: rest)) :
    Stamped separator length ((other, stamp) :: rest) := by
  exact stamped.tail.cons (stamped (name, stamp) (by simp))

theorem Alike.keep (here : field.2.length = length ∧ separator ∉ field.2)
    (alike : Alike separator length left right) :
    Alike separator length (field :: left) (field :: right) := by
  obtain ⟨fine, stamped, first, second⟩ := alike
  exact ⟨field :: fine, stamped.cons here, .keep field first, .keep field second⟩

theorem Alike.glue {name stamp : List α}
    (here : field.2.length = length ∧ separator ∉ field.2)
    (alike : Alike separator length left ((name, stamp) :: right)) :
    Alike separator length (field :: left)
      ((field.1 ++ separator :: (field.2 ++ name), stamp) :: right) := by
  obtain ⟨fine, stamped, first, second⟩ := alike
  exact ⟨field :: fine, stamped.cons here, .keep field first, .glue field second⟩

theorem text_cons (field : Field α) (rest : List (Field α)) (tail : List α) :
    text separator (field :: rest) ++ tail =
      field.1 ++ separator :: (field.2 ++ (text separator rest ++ tail)) := by
  simp [text]

theorem alike_of_same_text {leftTail rightTail : List α}
    (leftFree : separator ∉ leftTail) (rightFree : separator ∉ rightTail) :
    ∀ {left right : List (Field α)},
      Stamped separator length left → Stamped separator length right →
      text separator left ++ leftTail = text separator right ++ rightTail →
        Alike separator length left right ∧ leftTail = rightTail
  | [], [], _, _, same => ⟨⟨[], by simp [Stamped], .nil, .nil⟩, by simpa [text] using same⟩
  | [], field :: rest, _, _, same => by
      have tails : leftTail = text separator (field :: rest) ++ rightTail := by
        simpa [text] using same
      exact absurd (by rw [tails, text_cons]; simp) leftFree
  | field :: rest, [], _, _, same => by
      have tails : text separator (field :: rest) ++ leftTail = rightTail := by
        simpa [text] using same
      exact absurd (by rw [← tails, text_cons]; simp) rightFree
  | (leftName, leftStamp) :: left, (rightName, rightStamp) :: right, leftStamped, rightStamped,
    same => by
      have leftHere := leftStamped (leftName, leftStamp) (by simp)
      have rightHere := rightStamped (rightName, rightStamp) (by simp)
      rw [text_cons, text_cons] at same
      rcases Nat.lt_trichotomy leftName.length rightName.length with shorter | equal | longer
      · obtain ⟨name, rfl, rests⟩ := name_within leftHere.2 shorter same
        rw [← text_cons (name, rightStamp)] at rests
        obtain ⟨alike, tails⟩ :=
          alike_of_same_text leftFree rightFree leftStamped.tail rightStamped.renamed rests
        exact ⟨alike.glue leftHere, tails⟩
      · obtain ⟨rfl, others⟩ := List.append_inj same equal
        obtain ⟨rfl, rests⟩ :=
          List.append_inj (List.cons.inj others).2 (leftHere.1.trans rightHere.1.symm)
        obtain ⟨alike, tails⟩ :=
          alike_of_same_text leftFree rightFree leftStamped.tail rightStamped.tail rests
        exact ⟨alike.keep leftHere, tails⟩
      · obtain ⟨name, rfl, rests⟩ := name_within rightHere.2 longer same.symm
        rw [← text_cons (name, leftStamp)] at rests
        obtain ⟨alike, tails⟩ :=
          alike_of_same_text leftFree rightFree leftStamped.renamed rightStamped.tail rests.symm
        exact ⟨(alike.symm.glue rightHere).symm, tails⟩
termination_by left right => left.length + right.length

theorem same_text_iff {leftTail rightTail : List α}
    (leftStamped : Stamped separator length left) (rightStamped : Stamped separator length right)
    (leftFree : separator ∉ leftTail) (rightFree : separator ∉ rightTail) :
    text separator left ++ leftTail = text separator right ++ rightTail ↔
      Alike separator length left right ∧ leftTail = rightTail := by
  refine ⟨alike_of_same_text leftFree rightFree leftStamped rightStamped, ?_⟩
  rintro ⟨⟨fine, -, first, second⟩, rfl⟩
  rw [← first.same_text, second.same_text]

end GluedFields

end Barycenter
