import Barycenter.Foundation.History
import Mathlib.Data.List.Nodup
import Mathlib.Logic.Function.Basic

/-!
# Nonces of the ACME client

Every signed request uses up a nonce.  The client holds the nonce of the newest
answer, and a call takes it out before it signs; without one it asks for a new
one.  A call whose nonce was refused puts the nonce of that answer back after the
body was read, and another call may have taken it meanwhile.  Calls take turns at
every `await`.
-/

namespace Barycenter.Acme

structure Retries where
  nonce : Nat
  rateLimit : Nat
deriving DecidableEq, Repr

def Retries.bound (retries : Retries) : Nat := max retries.nonce retries.rateLimit + 1

/-- The body of an answer; a body without a problem has no type. -/
inductive Body where
  /-- Reading it or parsing it throws. -/
  | unreadable
  | read (problemType : Option String)
deriving DecidableEq, Repr

def endsIn (ending : String) : Option String → Bool
  | none => false
  | some text => ending.toList.isSuffixOf text.toList

def badNonce (status : Nat) (problemType : Option String) : Bool :=
  400 ≤ status && endsIn ":badNonce" problemType

def rateLimited (status : Nat) (problemType : Option String) : Bool :=
  400 ≤ status && (status = 429 || endsIn ":rateLimited" problemType)

/-- Where a call of `post` waits. -/
inductive Stage (ν : Type) where
  | idle
  /-- For the directory or a new nonce. -/
  | fetching (attempt : Nat)
  | drawn (attempt : Nat) (nonce : ν)
  | sent (attempt : Nat)
  /-- For the body, after the head of the answer. -/
  | reading (attempt status : Nat) (fresh : Option ν)
  | sleeping (attempt : Nat)
  | ended
deriving DecidableEq, Repr

/-- The nonce that a call has taken and not signed with yet. -/
def Stage.draws {ν : Type} : Stage ν → Option ν
  | .drawn _ nonce => some nonce
  | _ => none

def Stage.offers {ν : Type} : Stage ν → Option ν
  | .reading _ _ fresh => fresh
  | _ => none

inductive Deed (ι ν : Type) where
  | post (call : ι)
  | fetched (call : ι) (nonce : ν)
  /-- The directory or the new nonce is not there. -/
  | unfetched (call : ι)
  | send (call : ι)
  | unanswered (call : ι)
  | answered (call : ι) (status : Nat) (fresh : Option ν)
  | body (call : ι) (body : Body)
  | slept (call : ι)
deriving DecidableEq, Repr

structure Client (ι ν : Type) where
  nonce : Option ν
  stages : ι → Stage ν
  /-- The nonces that the CA has handed out. -/
  issued : List ν
  /-- The signed requests, the newest first. -/
  signed : List (ι × ν)

section

variable {ι ν : Type} [DecidableEq ι]

def Client.initial : Client ι ν :=
  { nonce := none, stages := fun _ => .idle, issued := [], signed := [] }

def Client.setStage (client : Client ι ν) (call : ι) (stage : Stage ν) : Client ι ν :=
  { client with stages := Function.update client.stages call stage }

/-- `#takeNonce`, up to its first `await`. -/
def Client.takeNonce (client : Client ι ν) (call : ι) (attempt : Nat) : Client ι ν :=
  match client.nonce with
  | some held => { client with nonce := none }.setStage call (.drawn attempt held)
  | none => client.setStage call (.fetching attempt)

/-- What `post` does with an answer that it has read. -/
def Client.handle (retries : Retries) (client : Client ι ν) (call : ι) (attempt status : Nat)
    (fresh : Option ν) : Body → Client ι ν
  | .unreadable => client.setStage call .ended
  | .read problemType =>
      if badNonce status problemType ∧ attempt < retries.nonce then
        { client with nonce := fresh }.takeNonce call (attempt + 1)
      else if rateLimited status problemType ∧ attempt < retries.rateLimit then
        client.setStage call (.sleeping attempt)
      else client.setStage call .ended

/-- One turn of a call, or an answer for it; the CA hands out no nonce twice. -/
def Client.act [DecidableEq ν] (retries : Retries) (client : Client ι ν) :
    Deed ι ν → Option (Client ι ν)
  | .post call =>
      match client.stages call with
      | .idle => some (client.takeNonce call 0)
      | _ => none
  | .fetched call nonce =>
      match client.stages call with
      | .fetching attempt =>
          if nonce ∈ client.issued then none
          else some ({ client with issued := nonce :: client.issued }.setStage call
            (.drawn attempt nonce))
      | _ => none
  | .unfetched call =>
      match client.stages call with
      | .fetching _ => some (client.setStage call .ended)
      | _ => none
  | .send call =>
      match client.stages call with
      | .drawn attempt nonce =>
          some ({ client with signed := (call, nonce) :: client.signed }.setStage call
            (.sent attempt))
      | _ => none
  | .unanswered call =>
      match client.stages call with
      | .sent _ => some (client.setStage call .ended)
      | _ => none
  | .answered call status fresh =>
      match client.stages call with
      | .sent attempt =>
          match fresh with
          | none => some (client.setStage call (.reading attempt status none))
          | some nonce =>
              if nonce ∈ client.issued then none
              else some ({ client with nonce := some nonce, issued := nonce :: client.issued }.setStage
                call (.reading attempt status (some nonce)))
      | _ => none
  | .body call body =>
      match client.stages call with
      | .reading attempt status fresh =>
          some (client.handle retries call attempt status fresh body)
      | _ => none
  | .slept call =>
      match client.stages call with
      | .sleeping attempt => some (client.takeNonce call (attempt + 1))
      | _ => none

def Acts [DecidableEq ν] (retries : Retries) (before : Client ι ν) (deed : Deed ι ν)
    (after : Client ι ν) : Prop :=
  before.act retries deed = some after

/-! ## What is claimed -/

def Client.spent (client : Client ι ν) : List ν := client.signed.map Prod.snd

/-- A call has taken the nonce, or has signed with it. -/
def Client.Taken (client : Client ι ν) (nonce : ν) : Prop :=
  nonce ∈ client.spent ∨ ∃ call, (client.stages call).draws = some nonce

def Client.attempts (client : Client ι ν) (call : ι) : Nat :=
  client.signed.countP fun request => request.1 = call

def Client.NoncesOnce (client : Client ι ν) : Prop := client.spent.Nodup

/-- No post makes more attempts than it may, and after the last answer it is over. -/
def Client.AttemptsBounded (retries : Retries) (client : Client ι ν) : Prop :=
  ∀ call, client.attempts call ≤ retries.bound ∧
    (client.attempts call = retries.bound →
      (∃ attempt, client.stages call = .sent attempt) ∨
        (∃ attempt status fresh, client.stages call = .reading attempt status fresh) ∨
          client.stages call = .ended)

/-- The nonce of a refused nonce's answer is put back only while nobody has it. -/
def PutsBackUntaken (retries : Retries) (event : Event (Client ι ν) (Deed ι ν)) : Prop :=
  ∀ call attempt status nonce problemType, event.label = .body call (.read problemType) →
    event.before.stages call = .reading attempt status (some nonce) →
    badNonce status problemType = true → attempt < retries.nonce → ¬ event.before.Taken nonce

/-! ## Attempts -/

def Stage.Counts (retries : Retries) (attempts : Nat) : Stage ν → Prop
  | .idle => attempts = 0
  | .fetching attempt | .drawn attempt _ => attempts = attempt ∧ attempt < retries.bound
  | .sent attempt | .reading attempt _ _ => attempts = attempt + 1 ∧ attempt < retries.bound
  | .sleeping attempt => attempts = attempt + 1 ∧ attempt + 1 < retries.bound
  | .ended => attempts ≤ retries.bound

def Client.Counted (retries : Retries) (client : Client ι ν) : Prop :=
  ∀ call, (client.stages call).Counts retries (client.attempts call)

variable {retries : Retries} {client after : Client ι ν} {call : ι} {attempt : Nat}
  {stage : Stage ν} {nonce : ν} {fresh : Option ν}

@[simp] theorem attempts_setStage (other : ι) :
    (client.setStage call stage).attempts other = client.attempts other := rfl

theorem Client.Counted.setStage (counted : client.Counted retries)
    (counts : stage.Counts retries (client.attempts call)) :
    (client.setStage call stage).Counted retries := by
  intro other
  rw [attempts_setStage]
  by_cases same : other = call
  · subst same
    simpa [Client.setStage] using counts
  · simp only [Client.setStage, Function.update_of_ne same]
    exact counted other

theorem Client.Counted.takeNonce (counted : client.Counted retries)
    (now : client.attempts call = attempt) (within : attempt < retries.bound) :
    (client.takeNonce call attempt).Counted retries := by
  unfold Client.takeNonce
  split
  · have emptied : ({ client with nonce := none } : Client ι ν).Counted retries := counted
    exact emptied.setStage ⟨now, within⟩
  · exact counted.setStage ⟨now, within⟩

theorem Client.Counted.handle {status : Nat} (counted : client.Counted retries)
    (here : client.stages call = .reading attempt status fresh) (body : Body) :
    (client.handle retries call attempt status fresh body).Counted retries := by
  obtain ⟨now, within⟩ : client.attempts call = attempt + 1 ∧ attempt < retries.bound := by
    have counts := counted call
    rwa [here] at counts
  have spent : client.attempts call ≤ retries.bound := by omega
  cases body with
  | unreadable => exact counted.setStage spent
  | read problemType =>
      simp only [Client.handle]
      split
      · rename_i again
        have refilled : ({ client with nonce := fresh } : Client ι ν).Counted retries := counted
        refine refilled.takeNonce now ?_
        have left := again.2
        unfold Retries.bound
        omega
      · split
        · rename_i again
          refine counted.setStage ⟨now, ?_⟩
          have left := again.2
          unfold Retries.bound
          omega
        · exact counted.setStage spent

theorem counted_act [DecidableEq ν] {deed : Deed ι ν} (acted : client.act retries deed = some after)
    (counted : client.Counted retries) : after.Counted retries := by
  cases deed with simp only [Client.act] at acted
  | post call =>
      split at acted
      · rename_i here
        cases acted
        have counts := counted call
        rw [here] at counts
        exact counted.takeNonce counts (Nat.succ_pos _)
      · cases acted
  | fetched call nonce =>
      split at acted
      · rename_i attempt here
        split at acted
        · cases acted
        · cases acted
          have counts := counted call
          rw [here] at counts
          have handed : ({ client with issued := nonce :: client.issued } : Client ι ν).Counted
              retries := counted
          exact handed.setStage counts
      · cases acted
  | unfetched call =>
      split at acted
      · rename_i attempt here
        cases acted
        have counts := counted call
        rw [here] at counts
        exact counted.setStage (counts.1 ▸ Nat.le_of_lt counts.2)
      · cases acted
  | send call =>
      split at acted
      · rename_i attempt nonce here
        cases acted
        intro other
        have counts := counted other
        by_cases same : other = call
        · subst same
          rw [here] at counts
          simpa [Client.setStage, Client.attempts, Stage.Counts] using counts
        · have apart : ¬ call = other := fun sameCall => same sameCall.symm
          simpa [Client.setStage, Client.attempts, Function.update_of_ne same, apart] using counts
      · cases acted
  | unanswered call =>
      split at acted
      · rename_i attempt here
        cases acted
        have counts := counted call
        rw [here] at counts
        exact counted.setStage (counts.1 ▸ counts.2)
      · cases acted
  | answered call status fresh =>
      split at acted
      · rename_i attempt here
        have counts := counted call
        rw [here] at counts
        split at acted
        · cases acted
          exact counted.setStage counts
        · rename_i nonce
          split at acted
          · cases acted
          · cases acted
            have held : ({ client with nonce := some nonce, issued := nonce :: client.issued } :
                Client ι ν).Counted retries := counted
            exact held.setStage counts
      · cases acted
  | body call body =>
      split at acted
      · rename_i here
        cases acted
        exact counted.handle here body
      · cases acted
  | slept call =>
      split at acted
      · rename_i attempt here
        cases acted
        have counts := counted call
        rw [here] at counts
        exact counted.takeNonce counts.1 counts.2
      · cases acted

theorem Client.Counted.bounded (counted : client.Counted retries) :
    client.AttemptsBounded retries := by
  intro call
  have counts := counted call
  cases here : client.stages call with
  | idle =>
      rw [here] at counts
      have none : client.attempts call = 0 := counts
      have positive : 0 < retries.bound := Nat.succ_pos _
      exact ⟨by omega, fun all => by omega⟩
  | fetching attempt | drawn attempt nonce | sleeping attempt =>
      rw [here] at counts
      obtain ⟨now, within⟩ := counts
      exact ⟨by omega, fun all => by omega⟩
  | sent attempt =>
      rw [here] at counts
      obtain ⟨now, within⟩ := counts
      exact ⟨by omega, fun _ => .inl ⟨attempt, rfl⟩⟩
  | reading attempt status fresh =>
      rw [here] at counts
      obtain ⟨now, within⟩ := counts
      exact ⟨by omega, fun _ => .inr (.inl ⟨attempt, status, fresh, rfl⟩)⟩
  | ended =>
      rw [here] at counts
      exact ⟨counts, fun _ => .inr (.inr rfl)⟩

/-! ## Nonces -/

/-- The nonce that is held is nobody's, no two calls have the same one, and what a
request was signed with is gone. -/
structure Client.Sound (client : Client ι ν) : Prop where
  held : ∀ nonce, client.nonce = some nonce → ¬ client.Taken nonce
  apart : ∀ first second nonce, (client.stages first).draws = some nonce →
    (client.stages second).draws = some nonce → first = second
  unspent : ∀ call nonce, (client.stages call).draws = some nonce → nonce ∉ client.spent
  once : client.spent.Nodup
  known : ∀ nonce, client.Taken nonce ∨ client.nonce = some nonce ∨
    (∃ call, (client.stages call).offers = some nonce) → nonce ∈ client.issued

theorem draws_setStage {other : ι} :
    ((client.setStage call stage).stages other).draws =
      if other = call then stage.draws else (client.stages other).draws := by
  by_cases same : other = call
  · subst same
    simp [Client.setStage]
  · simp [Client.setStage, same]

theorem offers_setStage {other : ι} :
    ((client.setStage call stage).stages other).offers =
      if other = call then stage.offers else (client.stages other).offers := by
  by_cases same : other = call
  · subst same
    simp [Client.setStage]
  · simp [Client.setStage, same]

/-- A nonce is taken after a call has moved, when the call has it or it was taken. -/
theorem taken_of_setStage (taken : (client.setStage call stage).Taken nonce) :
    client.Taken nonce ∨ stage.draws = some nonce := by
  rcases taken with spent | ⟨other, draws⟩
  · exact .inl (.inl spent)
  · rw [draws_setStage] at draws
    split at draws
    · exact .inr draws
    · exact .inl (.inr ⟨other, draws⟩)

theorem Client.Sound.setStage (sound : client.Sound)
    (free : ∀ nonce, stage.draws = some nonce →
      client.nonce ≠ some nonce ∧ ¬ client.Taken nonce ∧ nonce ∈ client.issued)
    (offered : ∀ nonce, stage.offers = some nonce → nonce ∈ client.issued) :
    (client.setStage call stage).Sound := by
  constructor
  · intro nonce held taken
    rcases taken_of_setStage taken with before | mine
    · exact sound.held nonce held before
    · exact (free nonce mine).1 held
  · intro first second nonce left right
    rw [draws_setStage] at left right
    split at left
    · rename_i here
      split at right
      · rename_i there
        rw [here, there]
      · exact absurd (.inr ⟨second, right⟩) (free nonce left).2.1
    · split at right
      · exact absurd (.inr ⟨first, left⟩) (free nonce right).2.1
      · exact sound.apart first second nonce left right
  · intro other nonce draws spent
    rw [draws_setStage] at draws
    split at draws
    · exact (free nonce draws).2.1 (.inl spent)
    · exact sound.unspent other nonce draws spent
  · exact sound.once
  · rintro nonce (taken | held | ⟨other, offers⟩)
    · rcases taken_of_setStage taken with before | mine
      · exact sound.known nonce (.inl before)
      · exact (free nonce mine).2.2
    · exact sound.known nonce (.inr (.inl held))
    · rw [offers_setStage] at offers
      split at offers
      · exact offered nonce offers
      · exact sound.known nonce (.inr (.inr ⟨other, offers⟩))

omit [DecidableEq ι] in
theorem Client.Sound.hold (sound : client.Sound)
    (free : ∀ nonce, fresh = some nonce → ¬ client.Taken nonce ∧ nonce ∈ client.issued) :
    ({ client with nonce := fresh } : Client ι ν).Sound := by
  refine ⟨fun nonce held => (free nonce held).1, sound.apart, sound.unspent, sound.once, ?_⟩
  rintro nonce (taken | held | offers)
  · exact sound.known nonce (.inl taken)
  · exact (free nonce held).2
  · exact sound.known nonce (.inr (.inr offers))

omit [DecidableEq ι] in
theorem Client.Sound.issue (sound : client.Sound) (nonce : ν) :
    ({ client with issued := nonce :: client.issued } : Client ι ν).Sound :=
  ⟨sound.held, sound.apart, sound.unspent, sound.once, fun other known =>
    List.mem_cons_of_mem _ (sound.known other known)⟩

theorem Client.Sound.takeNonce (sound : client.Sound) (call : ι) (attempt : Nat) :
    (client.takeNonce call attempt).Sound := by
  unfold Client.takeNonce
  split
  · rename_i held is
    have emptied : ({ client with nonce := none } : Client ι ν).Sound := by
      refine sound.hold ?_
      intro nonce none
      cases none
    refine emptied.setStage ?_ ?_
    · intro nonce draws
      cases draws
      refine ⟨?_, sound.held held is, sound.known held (.inr (.inl is))⟩
      intro none
      cases none
    · intro nonce offers
      cases offers
  · refine sound.setStage ?_ ?_
    · intro nonce draws
      cases draws
    · intro nonce offers
      cases offers

theorem Client.Sound.leave (sound : client.Sound) (draws : stage.draws = none)
    (offers : stage.offers = none) : (client.setStage call stage).Sound := by
  refine sound.setStage ?_ ?_
  · intro nonce has
    rw [draws] at has
    cases has
  · intro nonce has
    rw [offers] at has
    cases has

omit [DecidableEq ι] in
theorem Client.Sound.untaken (sound : client.Sound) (new : nonce ∉ client.issued) :
    client.nonce ≠ some nonce ∧ ¬ client.Taken nonce :=
  ⟨fun held => new (sound.known nonce (.inr (.inl held))),
    fun taken => new (sound.known nonce (.inl taken))⟩

theorem Client.Sound.handle {status : Nat} (sound : client.Sound)
    (here : client.stages call = .reading attempt status fresh) {body : Body}
    (untaken : ∀ problemType nonce, body = .read problemType → fresh = some nonce →
      badNonce status problemType = true → attempt < retries.nonce → ¬ client.Taken nonce) :
    (client.handle retries call attempt status fresh body).Sound := by
  cases body with
  | unreadable => exact sound.leave rfl rfl
  | read problemType =>
      simp only [Client.handle]
      split
      · rename_i again
        refine Client.Sound.takeNonce (sound.hold fun nonce is => ?_) call (attempt + 1)
        refine ⟨untaken problemType nonce rfl is again.1 again.2, ?_⟩
        exact sound.known nonce (.inr (.inr ⟨call, by rw [here]; exact is⟩))
      · split
        · exact sound.leave rfl rfl
        · exact sound.leave rfl rfl

theorem Client.Sound.send (sound : client.Sound)
    (here : client.stages call = .drawn attempt nonce) :
    ({ client with signed := (call, nonce) :: client.signed }.setStage call
      (.sent attempt) : Client ι ν).Sound := by
  have mine : (client.stages call).draws = some nonce := by
    rw [here]
    rfl
  have spent : ∀ other, other ∈ ({ client with signed := (call, nonce) :: client.signed }.setStage
        call (.sent attempt) : Client ι ν).spent ↔ other = nonce ∨ other ∈ client.spent := by
    intro other
    simp [Client.spent, Client.setStage]
  have drawn : ∀ other value, (({ client with signed := (call, nonce) :: client.signed }.setStage
        call (.sent attempt) : Client ι ν).stages other).draws = some value →
      other ≠ call ∧ (client.stages other).draws = some value := by
    intro other value draws
    rw [draws_setStage] at draws
    split at draws
    · cases draws
    · rename_i apart
      exact ⟨apart, draws⟩
  have taken : ∀ other, ({ client with signed := (call, nonce) :: client.signed }.setStage
        call (.sent attempt) : Client ι ν).Taken other → client.Taken other := by
    rintro other (gone | ⟨who, draws⟩)
    · rcases (spent other).mp gone with rfl | before
      · exact .inr ⟨call, mine⟩
      · exact .inl before
    · exact .inr ⟨who, (drawn who other draws).2⟩
  constructor
  · exact fun value held has => sound.held value held (taken value has)
  · exact fun first second value left right =>
      sound.apart first second value (drawn first value left).2 (drawn second value right).2
  · intro other value draws gone
    obtain ⟨apart, before⟩ := drawn other value draws
    rcases (spent value).mp gone with rfl | old
    · exact apart (sound.apart other call value before mine)
    · exact sound.unspent other value before old
  · exact List.nodup_cons.mpr ⟨sound.unspent call nonce mine, sound.once⟩
  · rintro value (has | held | ⟨other, offers⟩)
    · exact sound.known value (.inl (taken value has))
    · exact sound.known value (.inr (.inl held))
    · rw [offers_setStage] at offers
      split at offers
      · cases offers
      · exact sound.known value (.inr (.inr ⟨other, offers⟩))

theorem sound_act [DecidableEq ν] {deed : Deed ι ν} (acted : client.act retries deed = some after)
    (careful : PutsBackUntaken retries ⟨client, deed, after⟩) (sound : client.Sound) :
    after.Sound := by
  cases deed with simp only [Client.act] at acted
  | post call =>
      split at acted
      · cases acted
        exact sound.takeNonce call 0
      · cases acted
  | fetched call nonce =>
      split at acted
      · split at acted
        · cases acted
        · rename_i new
          cases acted
          obtain ⟨unheld, untaken⟩ := sound.untaken new
          refine (sound.issue nonce).setStage ?_ ?_
          · intro value draws
            cases draws
            exact ⟨unheld, untaken, List.mem_cons_self⟩
          · intro value offers
            cases offers
      · cases acted
  | unfetched call | unanswered call =>
      split at acted
      · cases acted
        exact sound.leave rfl rfl
      · cases acted
  | send call =>
      split at acted
      · rename_i here
        cases acted
        exact sound.send here
      · cases acted
  | answered call status fresh =>
      split at acted
      · split at acted
        · cases acted
          exact sound.leave rfl rfl
        · rename_i nonce
          split at acted
          · cases acted
          · rename_i new
            cases acted
            have held : ({ client with
                nonce := some nonce, issued := nonce :: client.issued } : Client ι ν).Sound := by
              refine (sound.issue nonce).hold fun value is => ?_
              cases is
              exact ⟨(sound.untaken new).2, List.mem_cons_self⟩
            refine held.setStage ?_ ?_
            · intro value draws
              cases draws
            · intro value offers
              cases offers
              exact List.mem_cons_self
      · cases acted
  | body call body =>
      split at acted
      · rename_i attempt status fresh here
        cases acted
        refine sound.handle here fun problemType nonce read is refused left => ?_
        cases read
        cases is
        exact careful call attempt status nonce problemType rfl here refused left
      · cases acted
  | slept call =>
      split at acted
      · rename_i attempt _
        cases acted
        exact sound.takeNonce call (attempt + 1)
      · cases acted

/-! ## Runs -/

omit [DecidableEq ι] in
theorem sound_initial : (Client.initial : Client ι ν).Sound := by
  constructor <;> simp [Client.initial, Client.Taken, Client.spent, Stage.draws, Stage.offers]

theorem counted_initial : (Client.initial : Client ι ν).Counted retries := fun _ => rfl

/-- Every post is over after its last attempt, and while no nonce is put back that
another call has taken, none is used twice. -/
theorem nonces_used_once [DecidableEq ν] {history : List (Event (Client ι ν) (Deed ι ν))}
    {final : Client ι ν}
    (run : Follows (Acts retries) Client.initial history final) :
    final.AttemptsBounded retries ∧
      ((∀ event ∈ history, PutsBackUntaken retries event) → final.NoncesOnce) := by
  constructor
  · refine Client.Counted.bounded ?_
    exact run.invariant (Client.Counted retries) counted_initial
      fun before deed after acted counted => counted_act acted counted
  · intro careful
    have sound := run.invariant_along Client.Sound sound_initial
      fun event member acted sound => sound_act acted (careful event member) sound
    exact sound.once

end

/-! ## Two posts -/

/-- The second post takes the nonce of the first one's answer, whose body is read
afterwards. -/
def takenMeanwhile : List (Deed Nat Nat) :=
  [.post 0, .fetched 0 100, .send 0, .answered 0 400 (some 101), .post 1,
    .body 0 (.read (some "urn:ietf:params:acme:error:badNonce")), .send 1, .send 0]

theorem nonce_signed_twice :
    ∃ history final, Follows (Acts ⟨5, 5⟩) (Client.initial : Client Nat Nat) history final ∧
      history.map Event.label = takenMeanwhile ∧ ¬ final.NoncesOnce := by
  obtain ⟨history, final, run, labels, twice⟩ := @follows_of_attempt _ _
    (fun (before : Client Nat Nat) deed => before.act ⟨5, 5⟩ deed) .initial takenMeanwhile
    (fun (_, final) => decide (final.spent = [101, 101, 100])) (by decide +kernel)
  refine ⟨history, final, run, labels, fun once => ?_⟩
  unfold Client.NoncesOnce at once
  rw [of_decide_eq_true twice] at once
  exact absurd once (by decide)

/-- The refused nonce is followed by a new one, which the same post signs with while
another post asks for one. -/
def putBack : List (Deed Bool Nat) :=
  [.post false, .fetched false 100, .send false, .answered false 400 (some 101),
    .body false (.read (some "urn:ietf:params:acme:error:badNonce")), .post true, .send false,
    .fetched true 102, .send true, .answered false 200 (some 103), .body false (.read none)]

/-- `PutsBackUntaken`, with two calls. -/
def putsBackUntaken (event : Event (Client Bool Nat) (Deed Bool Nat)) : Bool :=
  match event.label with
  | .body call _ =>
      match event.before.stages call with
      | .reading _ _ (some nonce) =>
          nonce ∉ event.before.spent &&
            [false, true].all fun other => (event.before.stages other).draws ≠ some nonce
      | _ => true
  | _ => true

theorem untaken_of_putsBackUntaken {retries : Retries}
    {event : Event (Client Bool Nat) (Deed Bool Nat)} (untaken : putsBackUntaken event = true) :
    PutsBackUntaken retries event := by
  intro call attempt status nonce problemType named here _ _ taken
  simp only [putsBackUntaken, named, here, Bool.and_eq_true, decide_eq_true_eq] at untaken
  rcases taken with spent | ⟨other, draws⟩
  · exact untaken.1 spent
  · have free := List.all_eq_true.mp untaken.2 other (by cases other <;> simp)
    exact of_decide_eq_true free draws

theorem put_back_used_once :
    ∃ history final, Follows (Acts ⟨5, 5⟩) (Client.initial : Client Bool Nat) history final ∧
      history.map Event.label = putBack ∧ final.AttemptsBounded ⟨5, 5⟩ ∧ final.NoncesOnce := by
  obtain ⟨history, final, run, labels, untaken⟩ := @follows_of_attempt _ _
    (fun (before : Client Bool Nat) deed => before.act ⟨5, 5⟩ deed) .initial putBack
    (fun (history, _) => history.all putsBackUntaken) (by decide +kernel)
  obtain ⟨bounded, once⟩ := nonces_used_once run
  exact ⟨history, final, run, labels, bounded, once fun event member =>
    untaken_of_putsBackUntaken (List.all_eq_true.mp untaken event member)⟩

end Barycenter.Acme
