import Barycenter.Foundation.DelimitedText
import Barycenter.Dp.AgentState

/-!
# What the joined keys determine

Ids and digests are free text, so neither a key nor a canonical text alone
determines the request it was made from.  Together they do, up to the digests,
because they join the same ids with different separators.  The key of a
transition determines its plane and its token, which are free of separators and
come last.
-/

namespace Barycenter.Dp

open DelimitedText

theorem Plane.separator_notMem_text (separator : Char) (notLetter : separator.isAlpha = false)
    (plane : Plane) : separator ∉ plane.text.toList := by
  intro member
  have letters : ∀ letter ∈ plane.text.toList, letter.isAlpha = true := by
    cases plane <;> simp [Plane.text]
  rw [letters separator member] at notLetter
  cases notLetter

theorem Plane.text_injective {left right : Plane} (same : left.text = right.text) :
    left = right := by
  cases left <;> cases right <;> first | rfl | exact absurd same (by decide)

theorem Step.text_injective {left right : Step} (same : left.text = right.text) :
    left = right := by
  cases left <;> cases right <;> first | rfl | exact absurd same (by decide)

theorem Step.separator_notMem_text (step : Step) : ':' ∉ step.text.toList := by
  cases step <;> decide +kernel

theorem key_layout (op : OperationTuple) (step : Step) :
    (key op step).toList =
      op.operationId.toList ++ ':' :: (op.transitionId.toList ++ ':' ::
        ((toString op.leaderToken).toList ++ ':' ::
          (op.plane.text.toList ++ ':' :: step.text.toList))) := by
  simp [key]

variable {left right : OperationTuple} {step other : Step}

theorem key_step (same : key left step = key right other) : step = other := by
  have ending : ∀ (op : OperationTuple) (step : Step), ∃ front,
      (key op step).toList = front ++ ':' :: step.text.toList := by
    intro op step
    refine ⟨op.operationId.toList ++ ':' :: (op.transitionId.toList ++ ':' ::
      ((toString op.leaderToken).toList ++ ':' :: op.plane.text.toList)), ?_⟩
    rw [key_layout]
    simp
  obtain ⟨leftFront, leftShape⟩ := ending left step
  obtain ⟨rightFront, rightShape⟩ := ending right other
  have joined := leftShape.symm.trans ((congrArg String.toList same).trans rightShape)
  have steps := (split_at_last_separator (Step.separator_notMem_text step)
    (Step.separator_notMem_text other) joined).2
  exact Step.text_injective (String.toList_inj.mp steps)

theorem key_plane (same : key left step = key right other) : left.plane = right.plane := by
  have steps := key_step same
  have keys := congrArg String.toList same
  rw [key_layout, key_layout, ← steps] at keys
  have front (op : OperationTuple) : op.operationId.toList ++ ':' :: (op.transitionId.toList ++
      ':' :: ((toString op.leaderToken).toList ++ ':' ::
        (op.plane.text.toList ++ ':' :: step.text.toList))) =
      ((op.operationId.toList ++ ':' :: (op.transitionId.toList ++
        ':' :: (toString op.leaderToken).toList)) ++ ':' :: op.plane.text.toList) ++
          ':' :: step.text.toList := by
    simp
  rw [front, front] at keys
  have noColon := Plane.separator_notMem_text ':' (by decide)
  have planes := (split_at_last_separator (Step.separator_notMem_text step)
    (Step.separator_notMem_text step) keys).1
  exact Plane.text_injective (String.toList_inj.mp
    (split_at_last_separator (noColon _) (noColon _) planes).2)

/-- The canonical text behind the plane: the coordinates and the digests. -/
def canonicalTail (op : OperationTuple) : List Char :=
  (toString op.expectedCurrent.activationEpoch).toList ++ '|' ::
    ((toString op.expectedCurrent.membershipRevision).toList ++ '|' ::
      ((toString op.target.activationEpoch).toList ++ '|' ::
        ((toString op.target.membershipRevision).toList ++ '|' ::
          (op.payloadDigest.toList ++ '|' ::
            (op.targetGeneration.toList ++ '|' :: op.generationDigest.toList)))))

theorem canonical_layout (op : OperationTuple) :
    (canonical op).toList =
      (toString op.leaderToken).toList ++ '|' :: (op.operationId.toList ++ '|' ::
        (op.transitionId.toList ++ '|' ::
          (op.plane.text.toList ++ '|' :: canonicalTail op))) := by
  simp [canonical, canonicalTail]

theorem transitionKey_layout (who : Identity) (plane : Plane) :
    (transitionKey who plane).toList =
      (who.operationId.toList ++ ':' :: who.transitionId.toList) ++ ':' ::
        ((toString who.leaderToken).toList ++ ':' :: plane.text.toList) := by
  simp [transitionKey]

theorem legacyTerminalKey_layout (who : Identity) (plane : Plane) :
    (legacyTerminalKey who plane).toList =
      (who.operationId.toList ++ ':' :: who.transitionId.toList) ++ ':' ::
        plane.text.toList := by
  simp [legacyTerminalKey]

theorem canonicalTail_coordinates (same : canonicalTail left = canonicalTail right) :
    left.expectedCurrent = right.expectedCurrent ∧ left.target = right.target := by
  have free : ∀ number : Nat, '|' ∉ (toString number).toList :=
    separator_notMem_numeral (by decide)
  simp only [canonicalTail] at same
  obtain ⟨expectedEpoch, same⟩ := split_at_separator (free _) (free _) same
  obtain ⟨expectedRevision, same⟩ := split_at_separator (free _) (free _) same
  obtain ⟨targetEpoch, same⟩ := split_at_separator (free _) (free _) same
  obtain ⟨targetRevision, -⟩ := split_at_separator (free _) (free _) same
  obtain ⟨leftToken, _, _, _, ⟨_, _⟩, ⟨_, _⟩, _, _, _⟩ := left
  obtain ⟨rightToken, _, _, _, ⟨_, _⟩, ⟨_, _⟩, _, _, _⟩ := right
  simp only [Coordinate.mk.injEq]
  exact ⟨⟨numeral_injective expectedEpoch, numeral_injective expectedRevision⟩,
    ⟨numeral_injective targetEpoch, numeral_injective targetRevision⟩⟩

/-- Requests with the same key and the same canonical text are the same
transition on the same plane with the same coordinates. -/
theorem same_request (sameKey : key left step = key right other)
    (sameText : canonical left = canonical right) :
    left.identity = right.identity ∧ left.plane = right.plane ∧
      left.expectedCurrent = right.expectedCurrent ∧ left.target = right.target := by
  have keys := congrArg String.toList sameKey
  have texts := congrArg String.toList sameText
  rw [key_layout, key_layout] at keys
  rw [canonical_layout, canonical_layout] at texts
  have free : ∀ number : Nat, '|' ∉ (toString number).toList :=
    separator_notMem_numeral (by decide)
  obtain ⟨token, texts⟩ := split_at_separator (free _) (free _) texts
  obtain ⟨operation, texts, keys⟩ :=
    split_at_two_separators (by decide) texts keys
  obtain ⟨transition, texts, -⟩ := split_at_two_separators (by decide) texts keys
  have noBar := Plane.separator_notMem_text '|' (by decide)
  obtain ⟨plane, tails⟩ := split_at_separator (noBar _) (noBar _) texts
  obtain ⟨expected, target⟩ := canonicalTail_coordinates tails
  refine ⟨?_, Plane.text_injective (String.toList_inj.mp plane), expected, target⟩
  simp only [OperationTuple.identity, Identity.mk.injEq]
  exact ⟨String.toList_inj.mp operation, String.toList_inj.mp transition,
    numeral_injective token⟩

/-- The key of a transition determines its plane, its token, and the key the
transition had before tokens were part of it. -/
theorem same_transitionKey {left right : Identity} {plane other : Plane}
    (same : transitionKey left plane = transitionKey right other) :
    plane = other ∧ left.leaderToken = right.leaderToken ∧
      legacyTerminalKey left plane = legacyTerminalKey right other := by
  have keys := congrArg String.toList same
  rw [transitionKey_layout, transitionKey_layout, ← List.cons_append, ← List.append_assoc,
    ← List.cons_append, ← List.append_assoc] at keys
  have noColon := Plane.separator_notMem_text ':' (by decide)
  have free : ∀ number : Nat, ':' ∉ (toString number).toList :=
    separator_notMem_numeral (by decide)
  obtain ⟨names, planes⟩ := split_at_last_separator (noColon _) (noColon _) keys
  obtain ⟨names, tokens⟩ := split_at_last_separator (free _) (free _) names
  refine ⟨Plane.text_injective (String.toList_inj.mp planes), numeral_injective tokens, ?_⟩
  refine String.toList_inj.mp ?_
  rw [legacyTerminalKey_layout, legacyTerminalKey_layout, names, planes]

end Barycenter.Dp
