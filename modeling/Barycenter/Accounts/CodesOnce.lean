import Barycenter.Accounts.FactorTransactions
import Mathlib.Tactic.ByContra
import Mathlib.Tactic.SplitIfs

/-!
# Second-factor codes work once

The row of the authenticator is held from the update of its last step on, and a
recovery code from its use on.  What is between the reading of a row and its update
is not: there a careful run finds the confirmed row it has read, begins no
enrolment over a confirmed one, and renews the recovery codes one transaction at
a time.
-/

namespace Barycenter.Accounts.Codes

/-! ## What a transaction holds and knows -/

def Change.locks : Change → Bool
  | .confirmTotp _ _ | .enrolled _ => true
  | .removed deleted _ => deleted
  | .regenerate => false

def Phase.rows : Phase → List Row
  | .proved _ (.step _ _) | .began _ | .opening _ _ => [.totp]
  | .proved _ (.recovery code) => [.code code]
  | .enrolling deleted _ => if deleted then [.totp] else []
  | .renewing change | .clearing change _ => if change.locks then [.totp] else []
  | .ready change doomed => (if change.locks then [.totp] else []) ++ doomed.map .code
  | _ => []

abbrev Factors : Type := Option Totp × (Nat → Option Bool)

def Store.factors (store : Store) : Factors := (store.totp, store.codes)

def Factors.Awaits (factors : Factors) (row : Totp) : Prop :=
  factors.1 = some row ∧ row.confirmed = false

def Factors.Doomed (factors : Factors) (doomed : List Nat) : Prop :=
  ∀ code, factors.2 code ≠ none → code ∈ doomed

/-- The row is that of the confirmed enrolment, and the step is not used up. -/
def Factors.Proves (factors : Factors) : Proof → Prop
  | .step secret step => ∃ row, factors.1 = some row ∧ row.secret = secret ∧
      row.confirmed = true ∧ row.lastStep < step
  | .recovery code => factors.2 code = some false

def Change.Known (factors : Factors) : Change → Prop
  | .confirmTotp row _ => factors.Awaits row
  | _ => True

def Phase.Known (factors : Factors) : Phase → Prop
  | .proved _ proof => factors.Proves proof
  | .began _ => ∀ row, factors.1 = some row → row.confirmed = false
  | .opening row _ => factors.Awaits row
  | .renewing change => change.Known factors
  | .clearing change doomed | .ready change doomed =>
      change.Known factors ∧ factors.Doomed doomed
  | _ => True

def Phase.replaces : Phase → Bool
  | .clearing _ _ | .ready _ _ => true
  | _ => false

structure Store.Sound (store : Store) : Prop where
  secret : ∀ row, store.totp = some row → row.secret < store.drawn
  confirmed : ∀ row, store.totp = some row → row.confirmed = true → row.secret ∈ store.confirmed
  codes : ∀ code, store.codes code ≠ none → code < store.drawn

def Alone (phases : Nat → Phase) : Prop :=
  ∀ one other, (phases one).replaces = true → (phases other).replaces = true → one = other

structure World.Sound (world : World) : Prop where
  store : world.store.Sound
  kept : HeldRows.Kept Phase.rows Phase.Known world.store.factors world.locks
  alone : Alone world.locks.phases

/-- What the code does not check in front of a statement. -/
def Phase.Careful (world : World) : Phase → Prop
  | .counting _ secret _ =>
      ∃ row, world.store.totp = some row ∧ row.secret = secret ∧ row.confirmed = true
  | .inserting _ => ∀ row, world.store.totp = some row → row.confirmed = false
  | .renewing _ => ∀ other, (world.locks.phases other).replaces = false
  | _ => True

def Careful (event : Event World Label) : Prop :=
  match event.label with
  | .look transaction | .statement transaction =>
      (event.before.locks.phases transaction).Careful event.before
  | _ => True

/-! ## What a commit does -/

variable {store : Store} {clock : Nat} {phase : Phase}

theorem publish_other {code : Nat} (old : code < store.drawn)
    (apart : Row.code code ∉ phase.rows) :
    (store.publish clock phase).codes code = store.codes code := by
  cases phase with
  | proved door proof =>
      cases proof with
      | step secret step => rfl
      | recovery used =>
          have other : code ≠ used := by simpa [Phase.rows] using apart
          simp [Store.publish, other]
  | ready change doomed =>
      have kept : code ∉ doomed := by
        intro listed
        exact apart (by simp [Phase.rows, listed])
      simp [Store.publish, Nat.not_lt.mpr (Nat.le_of_lt old), kept]
  | _ => rfl

theorem publish_totp (apart : Row.totp ∉ phase.rows) :
    (store.publish clock phase).totp = store.totp := by
  cases phase with
  | proved door proof =>
      cases proof with
      | step secret step => simp [Phase.rows] at apart
      | recovery used => rfl
  | began createdAt => simp [Phase.rows] at apart
  | ready change doomed =>
      cases change with
      | confirmTotp row step | enrolled step => simp [Phase.rows, Change.locks] at apart
      | removed deleted revokes =>
          cases deleted with
          | true => simp [Phase.rows, Change.locks] at apart
          | false => rfl
      | regenerate => rfl
  | _ => rfl

theorem publish_codes {code : Nat} (replaces : phase.replaces = false)
    (stored : (store.publish clock phase).codes code ≠ none) : store.codes code ≠ none ∨
      ∃ door, phase = .proved door (.recovery code) := by
  cases phase with
  | proved door proof =>
      cases proof with
      | step secret step => exact .inl stored
      | recovery used =>
          by_cases same : code = used
          · exact .inr ⟨door, by rw [same]⟩
          · exact .inl (by simpa [Store.publish, same] using stored)
  | ready change doomed => cases replaces
  | _ => exact .inl stored

theorem drawn_publish : store.drawn ≤ (store.publish clock phase).drawn := by
  cases phase <;> simp only [Store.publish] <;> omega

theorem confirmed_publish {secret : Nat} (ever : secret ∈ store.confirmed) :
    secret ∈ (store.publish clock phase).confirmed := by
  cases phase with
  | ready change doomed => exact List.mem_append.mpr (.inr ever)
  | _ => exact ever

/-- A row is that of a new enrolment, or it goes on from the row before: its step
does not fall while it is confirmed. -/
def Store.Continues (store next : Store) (row : Totp) : Prop :=
  (row.secret = store.drawn ∧ store.drawn < next.drawn ∧
      (row.confirmed = true → row.secret ∈ next.confirmed)) ∨
    ∃ old, store.totp = some old ∧ old.secret = row.secret ∧
      (old.confirmed = true → row.confirmed = true ∧ old.lastStep ≤ row.lastStep) ∧
      (row.confirmed = true → old.confirmed = true ∨ row.secret ∈ next.confirmed)

theorem totp_publish {row : Totp} (known : phase.Known store.factors)
    (written : (store.publish clock phase).totp = some row) :
    store.Continues (store.publish clock phase) row := by
  have kept (next : Store) (found : store.totp = some row) : store.Continues next row :=
    .inr ⟨row, found, rfl, fun confirmed => ⟨confirmed, Nat.le_refl _⟩, .inl⟩
  have draws : store.drawn < store.drawn + 1 + RECOVERY_CODES := by omega
  cases phase with
  | proved door proof =>
      cases proof with
      | recovery used => exact kept _ written
      | step secret step =>
          obtain ⟨old, found, -, -, raised⟩ := known
          have found : store.totp = some old := found
          simp only [Store.publish, found, Option.map_some, Option.some.injEq] at written
          subst written
          exact .inr ⟨old, found, rfl, fun confirmed => ⟨confirmed, Nat.le_of_lt raised⟩, .inl⟩
  | began createdAt =>
      cases written
      cases found : store.totp with
      | none => exact .inl ⟨rfl, draws, fun confirmed => by cases confirmed⟩
      | some old =>
          have waits := known old found
          exact .inl ⟨rfl, draws, fun confirmed => by simp [waits] at confirmed⟩
  | ready change doomed =>
      cases change with
      | confirmTotp old step =>
          cases written
          obtain ⟨found, waits⟩ := known.1
          exact .inr ⟨old, found, rfl, fun confirmed => by simp [waits] at confirmed,
            fun _ => .inr List.mem_cons_self⟩
      | removed deleted revokes =>
          cases deleted with
          | true => cases written
          | false => exact kept _ written
      | enrolled step =>
          cases written
          exact .inl ⟨rfl, draws, fun _ => List.mem_cons_self⟩
      | regenerate => exact kept _ written
  | _ => exact kept _ written

theorem Store.Sound.publish (sound : store.Sound) (known : phase.Known store.factors) :
    (store.publish clock phase).Sound where
  secret := by
    intro row written
    have grown : store.drawn ≤ (store.publish clock phase).drawn := drawn_publish
    rcases totp_publish known written with ⟨drawn, draws, -⟩ | ⟨old, found, same, -⟩
    · omega
    · have below := sound.secret old found
      omega
  confirmed := by
    intro row written confirmed
    rcases totp_publish known written with ⟨-, -, ever⟩ | ⟨old, found, same, -, ever⟩
    · exact ever confirmed
    · rcases ever confirmed with before | now
      · exact same ▸ confirmed_publish (sound.confirmed old found before)
      · exact now
  codes := by
    intro code stored
    by_cases before : store.codes code = none
    · cases phase with
      | proved door proof =>
          cases proof with
          | step secret step => exact absurd before stored
          | recovery used =>
              have free : store.codes used = some false := known
              have other : code ≠ used := by
                rintro rfl
                simp [free] at before
              simp [Store.publish, other, before] at stored
      | ready change doomed =>
          show code < store.drawn + 1 + RECOVERY_CODES
          simp only [Store.publish, before, ite_self] at stored
          split_ifs at stored with fresh
          · omega
          · exact absurd rfl stored
      | _ => exact absurd before stored
    · exact Nat.lt_of_lt_of_le (sound.codes code before) drawn_publish

theorem Change.Known.publish {change : Change} (known : change.Known store.factors)
    (apart : change.locks = true → Row.totp ∉ phase.rows) :
    change.Known (store.publish clock phase).factors := by
  cases change with
  | confirmTotp row step => exact ⟨(publish_totp (apart rfl)).trans known.1, known.2⟩
  | _ => trivial

theorem Phase.Known.publish {other : Phase} (sound : store.Sound)
    (known : other.Known store.factors) (mine : phase.Known store.factors)
    (apart : ∀ row ∈ other.rows, row ∉ phase.rows)
    (alone : other.replaces = true → phase.replaces = false) :
    other.Known (store.publish clock phase).factors := by
  have doomed : ∀ codes, Factors.Doomed store.factors codes → phase.replaces = false →
      Factors.Doomed (store.publish clock phase).factors codes := by
    intro codes covers replaces code stored
    rcases publish_codes replaces stored with before | ⟨door, rfl⟩
    · exact covers code before
    · have free : store.codes code = some false := mine
      exact covers code (by simp [Store.factors, free])
  cases other with
  | proved door proof =>
      cases proof with
      | step secret step =>
          obtain ⟨row, found, rest⟩ := known
          exact ⟨row, (publish_totp (apart _ List.mem_cons_self)).trans found, rest⟩
      | recovery code =>
          have free : store.codes code = some false := known
          exact (publish_other (sound.codes code (by simp [free]))
            (apart _ List.mem_cons_self)).trans free
  | began createdAt =>
      intro row written
      exact known row ((publish_totp (apart _ List.mem_cons_self)).symm.trans written)
  | opening row code =>
      exact ⟨(publish_totp (apart _ List.mem_cons_self)).trans known.1, known.2⟩
  | renewing change =>
      exact Change.Known.publish known fun locks => apart _ (by simp [Phase.rows, locks])
  | clearing change codes | ready change codes =>
      exact ⟨Change.Known.publish known.1 fun locks => apart _ (by simp [Phase.rows, locks]),
        doomed codes known.2 (alone rfl)⟩
  | _ => trivial

/-! ## Steps -/

section

variable {hotp : Nat → Nat → String} {idp : Bool} {world : World} {next : Phase}

theorem known_begin {request : Request} (begun : store.begin request = some phase) :
    phase.rows = [] ∧ phase.Known store.factors ∧ phase.replaces = false := by
  cases request with
  | confirmTotp code | regenerateRecoveryCodes =>
      simp only [Store.begin, Option.ite_none_right_eq_some, Option.some.injEq] at begun
      obtain ⟨-, rfl⟩ := begun
      exact ⟨rfl, trivial, rfl⟩
  | _ =>
      cases begun
      exact ⟨rfl, trivial, rfl⟩

theorem known_onward (removal : Removal) (deleted : Bool) (factors : Factors) :
    (removal.onward deleted).rows = (if deleted then [.totp] else []) ∧
      (removal.onward deleted).Known factors ∧ (removal.onward deleted).replaces = false := by
  cases removal with
  | removeTotp => exact ⟨rfl, trivial, rfl⟩
  | acceptLink step => cases step <;> exact ⟨rfl, trivial, rfl⟩

theorem known_statement (sound : world.store.Sound) (careful : phase.Careful world)
    (known : phase.Known world.store.factors)
    (stepped : world.statement hotp idp phase = some next) :
    (∀ row ∈ next.rows, row ∈ phase.rows) ∧ next.Known world.store.factors ∧
      (next.replaces = true → ∀ other, (world.locks.phases other).replaces = false) := by
  cases phase with
  | admitted door sent =>
      cases sent with
      | recovery code =>
          cases stepped
          exact ⟨by simp [Phase.rows], trivial, by simp [Phase.replaces]⟩
      | digits code =>
          simp only [World.statement, Option.ite_none_left_eq_some, Option.map_eq_some_iff]
            at stepped
          obtain ⟨-, row, -, rfl⟩ := stepped
          exact ⟨by simp [Phase.rows], trivial, by simp [Phase.replaces]⟩
  | checking door code secret lastStep =>
      obtain ⟨step, -, rfl⟩ := Option.map_eq_some_iff.mp stepped
      exact ⟨by simp [Phase.rows], trivial, by simp [Phase.replaces]⟩
  | opening row code =>
      obtain ⟨step, -, rfl⟩ := Option.map_eq_some_iff.mp stepped
      exact ⟨by simp [Phase.rows, Change.locks], known, by simp [Phase.replaces]⟩
  | deleting seen removal =>
      cases seen with
      | some row => cases stepped
      | none =>
          cases stepped
          obtain ⟨rows, facts, stays⟩ := known_onward removal false world.store.factors
          exact ⟨by simp [rows], facts, by simp [stays]⟩
  | renewing change =>
      cases stepped
      refine ⟨fun row member => member, ⟨known, fun code stored => ?_⟩, fun _ => careful⟩
      have below := sound.codes code stored
      exact List.mem_filter.mpr ⟨List.mem_range.mpr below, Option.isSome_iff_ne_none.mpr stored⟩
  | _ => cases stepped

theorem known_look {taken : List Row} (careful : phase.Careful world)
    (known : phase.Known world.store.factors) (looked : world.look idp phase = some (taken, next)) :
    (∀ row ∈ next.rows, row ∈ taken ∨ row ∈ phase.rows) ∧ next.Known world.store.factors ∧
      (next.replaces = true → phase.replaces = true) := by
  have plain : ∀ {later : Phase}, later = next → later.rows = [] →
      later.Known world.store.factors → later.replaces = false →
      (∀ row ∈ next.rows, row ∈ taken ∨ row ∈ phase.rows) ∧ next.Known world.store.factors ∧
        (next.replaces = true → phase.replaces = true) := by
    rintro later rfl rows facts stays
    exact ⟨by simp [rows], facts, by simp [stays]⟩
  cases phase with
  | asking sent =>
      simp only [World.look] at looked
      split_ifs at looked
      · exact plain (Prod.mk.inj (Option.some.inj looked)).2 rfl trivial rfl
      · exact plain (Prod.mk.inj (Option.some.inj looked)).2 rfl trivial rfl
  | entering door sent =>
      cases door with
      | stepUp => exact plain (Prod.mk.inj (Option.some.inj looked)).2 rfl trivial rfl
      | completeMfa session =>
          simp only [World.look, Option.ite_none_right_eq_some] at looked
          exact plain (Prod.mk.inj (Option.some.inj looked.2)).2 rfl trivial rfl
  | counting door secret step =>
      simp only [World.look, Option.ite_none_right_eq_some, Option.some.injEq, Prod.mk.injEq]
        at looked
      obtain ⟨later, rfl, rfl⟩ := looked
      obtain ⟨row, found, same, confirmed⟩ := careful
      have later : row.lastStep < step := by simpa [found] using later
      exact ⟨by simp [Phase.rows], ⟨row, found, same, confirmed, later⟩, by simp [Phase.replaces]⟩
  | finding door code =>
      simp only [World.look, Option.ite_none_right_eq_some, Option.some.injEq, Prod.mk.injEq]
        at looked
      obtain ⟨free, rfl, rfl⟩ := looked
      exact ⟨by simp [Phase.rows], free, by simp [Phase.replaces]⟩
  | starting =>
      simp only [World.look] at looked
      split at looked
      · exact plain (Prod.mk.inj (Option.some.inj looked)).2 rfl trivial rfl
      · simp only [Option.ite_none_left_eq_some] at looked
        exact plain (Prod.mk.inj (Option.some.inj looked.2)).2 rfl trivial rfl
  | inserting createdAt =>
      cases looked
      exact ⟨by simp [Phase.rows], careful, by simp [Phase.replaces]⟩
  | confirming code =>
      simp only [World.look, Option.bind_eq_some_iff, Option.ite_none_left_eq_some, not_or,
        Option.some.injEq, Prod.mk.injEq] at looked
      obtain ⟨row, found, ⟨waits, -⟩, rfl, rfl⟩ := looked
      exact ⟨by simp [Phase.rows], ⟨found, by simpa using waits⟩, by simp [Phase.replaces]⟩
  | resetting step => exact plain (Prod.mk.inj (Option.some.inj looked)).2 rfl trivial rfl
  | deleting seen removal =>
      cases seen with
      | none => cases looked
      | some row =>
          cases looked
          obtain ⟨rows, facts, stays⟩ := known_onward removal
            (world.store.totp.any fun other => other.id = row) world.store.factors
          exact ⟨fun row member => .inl (rows ▸ member), facts, by simp [stays]⟩
  | enrolling deleted step =>
      simp only [World.look, Option.ite_none_right_eq_some, Option.some.injEq, Prod.mk.injEq]
        at looked
      obtain ⟨-, rfl, rfl⟩ := looked
      exact ⟨by simp [Phase.rows, Change.locks], trivial, by simp [Phase.replaces]⟩
  | clearing change doomed =>
      cases looked
      refine ⟨fun row member => ?_, known, fun _ => rfl⟩
      exact (List.mem_append.mp member).symm
  | _ => cases looked

theorem alone_update {phases : Nat → Phase} {transaction : Nat} (alone : Alone phases)
    (first : next.replaces = true → (phases transaction).replaces = true ∨
      ∀ other, (phases other).replaces = false) :
    Alone (Function.update phases transaction next) := by
  have only : ∀ other, next.replaces = true → (phases other).replaces = true →
      other = transaction := by
    intro other mine theirs
    rcases first mine with already | nobody
    · exact alone other transaction theirs already
    · simp [nobody other] at theirs
  intro one other mine theirs
  by_cases here : one = transaction
  · by_cases there : other = transaction
    · rw [here, there]
    · simp only [here, Function.update_self, Function.update_of_ne there] at mine theirs
      exact here.trans (only other mine theirs).symm
  · by_cases there : other = transaction
    · simp only [there, Function.update_self, Function.update_of_ne here] at mine theirs
      exact (only one theirs mine).trans there.symm
    · simp only [Function.update_of_ne here, Function.update_of_ne there] at mine theirs
      exact alone one other mine theirs

theorem sound_start : World.start.Sound where
  store := by constructor <;> simp [World.start]
  kept := .start rfl trivial
  alone := by
    intro one other mine
    cases mine

theorem sound_step (before : World) (label : Label) (after : World)
    (careful : Step hotp idp before label after ∧ Careful ⟨before, label, after⟩)
    (sound : before.Sound) : after.Sound := by
  obtain ⟨stepped, careful⟩ := careful
  have idle : (Phase.idle).replaces = false := rfl
  cases stepped with
  | login has => exact ⟨⟨sound.store.1, sound.store.2, sound.store.3⟩, sound.kept, sound.alone⟩
  | begin free begun =>
      obtain ⟨rows, facts, stays⟩ := known_begin begun
      exact ⟨sound.store, sound.kept.goes (by simp [rows]) facts,
        alone_update sound.alone (by simp [stays])⟩
  | statement next =>
      obtain ⟨within, facts, first⟩ := known_statement sound.store careful (sound.kept.known _) next
      exact ⟨sound.store, sound.kept.goes within facts,
        alone_update sound.alone fun replaces => .inr (first replaces)⟩
  | look next free =>
      obtain ⟨within, facts, first⟩ := known_look careful (sound.kept.known _) next
      exact ⟨sound.store, sound.kept.takes free within facts,
        alone_update sound.alone fun replaces => .inl (first replaces)⟩
  | @commit transaction done =>
      have mine := sound.kept.known transaction
      refine ⟨sound.store.publish mine, sound.kept.ends rfl trivial ?_,
        alone_update sound.alone (by simp [idle])⟩
      intro other elsewhere known apart
      refine known.publish sound.store mine apart fun replaces => ?_
      by_contra replacing
      exact elsewhere (sound.alone other transaction replaces (by simpa using replacing))
  | fail =>
      exact ⟨sound.store, sound.kept.ends rfl trivial fun _ _ known _ => known,
        alone_update sound.alone (by simp [idle])⟩
  | tick onward => exact ⟨sound.store, sound.kept, sound.alone⟩

/-! ## Runs -/

/-- A transaction that commits logs in or steps up with the proof. -/
def Accepts (event : Event World Label) (proof : Proof) : Prop :=
  ∃ transaction door, event.label = .commit transaction ∧
    event.before.locks.phases transaction = .proved door proof

/-- The enrolment is removed or replaced, or the recovery codes are renewed or deleted. -/
def Retires (event : Event World Label) : Proof → Prop
  | .step secret _ =>
      (∃ row, event.before.store.totp = some row ∧ row.secret = secret) ∧
        ∀ row, event.after.store.totp = some row → row.secret ≠ secret
  | .recovery code =>
      event.before.store.codes code ≠ none ∧
        ∃ transaction change doomed, event.label = .commit transaction ∧
          event.before.locks.phases transaction = .ready change doomed

def Store.Spent (store : Store) : Proof → Prop
  | .step secret step => secret < store.drawn ∧ ∀ row, store.totp = some row →
      row.secret = secret → row.confirmed = true ∧ step ≤ row.lastStep
  | .recovery code => code < store.drawn ∧ store.codes code ≠ some false

variable {proof : Proof}

theorem Store.Spent.publish (spent : store.Spent proof) (known : phase.Known store.factors) :
    (store.publish clock phase).Spent proof := by
  cases proof with
  | recovery code =>
      refine ⟨Nat.lt_of_lt_of_le spent.1 drawn_publish, ?_⟩
      cases phase with
      | proved door used =>
          cases used with
          | step secret step => exact spent.2
          | recovery used =>
              simp only [Store.publish]
              split_ifs
              · simp
              · exact spent.2
      | ready change doomed =>
          simp only [Store.publish, Nat.not_lt.mpr (Nat.le_of_lt spent.1), false_and, and_false,
            if_false]
          split_ifs
          · simp
          · exact spent.2
      | _ => exact spent.2
  | step secret step =>
      refine ⟨Nat.lt_of_lt_of_le spent.1 drawn_publish, fun row written same => ?_⟩
      rcases totp_publish known written with ⟨drawn, -⟩ | ⟨old, found, before, onward, -⟩
      · exact absurd (same.symm.trans drawn) (Nat.ne_of_lt spent.1)
      · obtain ⟨confirmed, used⟩ := spent.2 old found (before.trans same)
        exact ⟨(onward confirmed).1, Nat.le_trans used (onward confirmed).2⟩

theorem spent_step (before : World) (label : Label) (after : World)
    (stepped : Step hotp idp before label after ∧ Careful ⟨before, label, after⟩)
    (sound : before.Sound) (spent : before.store.Spent proof) : after.store.Spent proof := by
  obtain ⟨stepped, -⟩ := stepped
  cases stepped with
  | commit done => exact spent.publish (sound.kept.known _)
  | login has => cases proof <;> exact spent
  | _ => exact spent

variable {event : Event World Label}

theorem spent_retired (stepped : Step hotp idp event.before event.label event.after)
    (sound : event.before.Sound) (ended : Accepts event proof ∨ Retires event proof) :
    event.after.store.Spent proof := by
  obtain ⟨before, label, after⟩ := event
  simp only at stepped sound
  rcases ended with ⟨transaction, door, rfl, proved⟩ | retires
  · simp only at proved
    cases stepped with
    | commit done =>
        have known := sound.kept.known transaction
        simp only [proved] at known ⊢
        cases proof with
        | step secret step =>
            obtain ⟨row, found, rfl, confirmed, -⟩ := known
            have found : before.store.totp = some row := found
            refine ⟨Nat.lt_of_lt_of_le (sound.store.secret row found) drawn_publish, ?_⟩
            intro later written _
            simp only [Store.publish, found, Option.map_some, Option.some.injEq] at written
            exact written ▸ ⟨confirmed, Nat.le_refl step⟩
        | recovery code =>
            have free : before.store.codes code = some false := known
            exact ⟨Nat.lt_of_lt_of_le (sound.store.codes code (by simp [free])) drawn_publish,
              by simp [Store.publish]⟩
  · cases proof with
    | step secret step =>
        obtain ⟨⟨row, found, rfl⟩, gone⟩ := retires
        have grown : before.store.drawn ≤ after.store.drawn := by
          cases stepped with
          | commit done => exact drawn_publish
          | _ => exact Nat.le_refl _
        exact ⟨Nat.lt_of_lt_of_le (sound.store.secret row found) grown,
          fun later written same => absurd same (gone later written)⟩
    | recovery code =>
        obtain ⟨stored, transaction, change, doomed, rfl, ready⟩ := retires
        simp only at ready stored
        cases stepped with
        | commit done =>
            have known := sound.kept.known transaction
            simp only [ready] at known ⊢
            have below := sound.store.codes code stored
            refine ⟨Nat.lt_of_lt_of_le below drawn_publish, ?_⟩
            simp [Store.publish, Nat.not_lt.mpr (Nat.le_of_lt below), known.2 code stored]

variable {history : List (Event World Label)} {final : World}

/-- In a careful run every step and every recovery code is accepted once, never after
it was retired, and only of an enrolment that has been confirmed. -/
theorem codes_work_once (run : Follows (Step hotp idp) World.start history final)
    (careful : ∀ event ∈ history, Careful event) :
    (history.Pairwise fun first second => ∀ proof,
        Accepts first proof ∨ Retires first proof → ¬Accepts second proof) ∧
      ∀ event ∈ history, ∀ secret step, Accepts event (.step secret step) →
        secret ∈ event.before.store.confirmed := by
  have among := run.among careful
  have events := among.at_events sound_start sound_step
  refine ⟨?_, ?_⟩
  · rw [List.pairwise_iff_forall_sublist]
    rintro first second together proof ended ⟨transaction, door, -, proved⟩
    have lasts := (among.lasting World.Sound (fun world => world.store.Spent proof) sound_start
      sound_step spent_step).2.2.forall_sublist together
    obtain ⟨stepped, sound⟩ := events first (together.subset (by simp))
    obtain ⟨-, later⟩ := events second (together.subset (by simp))
    have known := later.kept.known transaction
    simp only [proved] at known
    have spent := lasts (spent_retired stepped.1 sound ended)
    cases proof with
    | step secret step =>
        obtain ⟨row, found, same, -, above⟩ := known
        exact Nat.not_lt.mpr (spent.2 row found same).2 above
    | recovery code => exact spent.2 known
  · rintro event member secret step ⟨transaction, door, -, proved⟩
    have sound := (events event member).2
    have known := sound.kept.known transaction
    simp only [proved] at known
    obtain ⟨row, found, rfl, confirmed, -⟩ := known
    exact sound.store.confirmed row found confirmed

theorem codes_work_once_login :
    ∃ history final, Follows (Step (fun _ _ => "000000") false) World.start history final ∧
      (∃ event ∈ history, Accepts event (.step 0 2)) ∧
      history.Pairwise fun first second => ∀ proof,
        Accepts first proof ∨ Retires first proof → ¬Accepts second proof := by
  have run : Follows (Step (fun _ _ => "000000") false) World.start
      [⟨_, .begin 0 .beginTotp, _⟩, ⟨_, .look 0, _⟩, ⟨_, .look 0, _⟩, ⟨_, .commit 0, _⟩,
        ⟨_, .begin 0 (.confirmTotp "000000"), _⟩, ⟨_, .look 0, _⟩, ⟨_, .statement 0, _⟩,
        ⟨_, .statement 0, _⟩, ⟨_, .look 0, _⟩, ⟨_, .commit 0, _⟩, ⟨_, .login 0, _⟩,
        ⟨_, .tick 30000, _⟩, ⟨_, .begin 0 (.completeMfa 0 (.digits "000000")), _⟩,
        ⟨_, .look 0, _⟩, ⟨_, .statement 0, _⟩, ⟨_, .statement 0, _⟩, ⟨_, .look 0, _⟩,
        ⟨_, .commit 0, _⟩] _ :=
    .cons (.begin rfl rfl) <| .cons (.look rfl (by decide)) <| .cons (.look rfl (by decide)) <|
    .cons (.commit rfl) <| .cons (.begin rfl rfl) <| .cons (.look rfl (by decide)) <|
    .cons (.statement rfl) <| .cons (.statement rfl) <| .cons (.look rfl (by decide)) <|
    .cons (.commit rfl) <| .cons (.login (.inl rfl)) <| .cons (.tick (by decide)) <|
    .cons (.begin rfl rfl) <| .cons (.look rfl (by decide)) <| .cons (.statement rfl) <|
    .cons (.statement rfl) <| .cons (.look rfl (by decide)) <| .cons (.commit rfl) <| .nil _
  refine ⟨_, _, run, ⟨_, List.mem_of_getLast? rfl, 0, _, rfl, rfl⟩, (codes_work_once run ?_).1⟩
  simp only [List.forall_mem_cons]
  exact ⟨trivial, trivial, fun row found => (by cases found), trivial, trivial, trivial, trivial,
    fun other => (by cases other <;> rfl), trivial, trivial, trivial, trivial, trivial, trivial,
    trivial, trivial, ⟨_, rfl, rfl, rfl⟩, trivial, by simp⟩

theorem unconfirmed_completes :
    ∃ history final, Follows (Step (fun _ _ => "000000") false) World.start history final ∧
      ∃ event ∈ history, ∃ secret step, Accepts event (.step secret step) ∧
        secret ∉ event.before.store.confirmed := by
  have run : Follows (Step (fun _ _ => "000000") false) World.start
      [⟨_, .begin 0 .beginTotp, _⟩, ⟨_, .look 0, _⟩, ⟨_, .look 0, _⟩, ⟨_, .commit 0, _⟩,
        ⟨_, .begin 0 (.confirmTotp "000000"), _⟩, ⟨_, .look 0, _⟩, ⟨_, .statement 0, _⟩,
        ⟨_, .statement 0, _⟩, ⟨_, .look 0, _⟩, ⟨_, .commit 0, _⟩, ⟨_, .login 0, _⟩,
        ⟨_, .begin 0 .removeTotp, _⟩, ⟨_, .look 0, _⟩, ⟨_, .statement 0, _⟩, ⟨_, .look 0, _⟩,
        ⟨_, .commit 0, _⟩, ⟨_, .begin 0 .beginTotp, _⟩, ⟨_, .look 0, _⟩, ⟨_, .look 0, _⟩,
        ⟨_, .commit 0, _⟩, ⟨_, .begin 0 (.completeMfa 0 (.digits "000000")), _⟩,
        ⟨_, .look 0, _⟩, ⟨_, .statement 0, _⟩, ⟨_, .statement 0, _⟩, ⟨_, .look 0, _⟩,
        ⟨_, .commit 0, _⟩] _ :=
    .cons (.begin rfl rfl) <| .cons (.look rfl (by decide)) <| .cons (.look rfl (by decide)) <|
    .cons (.commit rfl) <| .cons (.begin rfl rfl) <| .cons (.look rfl (by decide)) <|
    .cons (.statement rfl) <| .cons (.statement rfl) <| .cons (.look rfl (by decide)) <|
    .cons (.commit rfl) <| .cons (.login (.inl rfl)) <| .cons (.begin rfl rfl) <|
    .cons (.look rfl (by decide)) <| .cons (.statement rfl) <| .cons (.look rfl (by decide)) <|
    .cons (.commit rfl) <| .cons (.begin rfl rfl) <| .cons (.look rfl (by decide)) <|
    .cons (.look rfl (by decide)) <| .cons (.commit rfl) <| .cons (.begin rfl rfl) <|
    .cons (.look rfl (by decide)) <| .cons (.statement rfl) <| .cons (.statement rfl) <|
    .cons (.look rfl (by decide)) <| .cons (.commit rfl) <| .nil _
  exact ⟨_, _, run, _, List.mem_of_getLast? rfl, _, _, ⟨0, _, rfl, rfl⟩, by decide⟩

end

end Barycenter.Accounts.Codes
