import Mathlib.Data.List.Chain
import Mathlib.Logic.Relation
import PeerMessaging.Link.Lifecycle

/-!
# The walk of a lifecycle

Transitions are asked for by anybody, and the pending state is applied now and then: whatever falls
between what, a lifecycle sees a sequence of calls (`Lifecycle.Call`), each of which is answered
(`Lifecycle.answers`) and leaves a lifecycle for the next (`Lifecycle.after`). The requests that are
accepted are a walk along the transitions that are permitted (`isChain_accepted`), and what is
pending can always be reached from what is current (`reachable_after`). Once closing is pending
there is no way back but through the end (`isEnding_after`).
-/

namespace PeerMessaging

namespace ConnectionState

/-- The second state may follow the first. -/
def Permits (a b : ConnectionState) : Prop := a.permits b = true

instance : DecidableRel Permits := fun a b => inferInstanceAs (Decidable (a.permits b = true))

/-- A connection in this state is on its way out, or has come to its end. -/
def isEnding : ConnectionState → Bool
  | closing | closed | error => true
  | _ => false

/-- What is permitted on the way out leads further out, or back to the beginning from the end. -/
theorem isEnding_of_permits {a b : ConnectionState} (ha : a.isEnding = true)
    (h : a.permits b = true) (hb : b ≠ .initial) : b.isEnding = true := by
  cases a <;> cases b <;> simp_all [isEnding, permits]

/-- A connection on its way out does not seek a peer, and is not connected to one. -/
theorem not_permits_of_isEnding {a b : ConnectionState} (ha : a.isEnding = true)
    (hb : b ≠ .initial) (hn : b.isEnding = false) : a.permits b = false := by
  cases h : a.permits b with
  | false => rfl
  | true =>
    have hending := isEnding_of_permits ha h hb
    rw [hn] at hending
    cases hending

/-- An end is on the way out. -/
theorem isEnding_of_isTerminal {a : ConnectionState} (h : a.isTerminal = true) :
    a.isEnding = true := by
  cases a <;> first | rfl | cases h

/-- A connection on its way out does not begin to close. -/
theorem not_permits_closing_of_isEnding {a : ConnectionState} (h : a.isEnding = true) :
    a.permits .closing = false := by
  cases a <;> first | rfl | cases h

/-- A connection begins anew only from a state in which it has come to its end. -/
theorem permits_initial_iff {a : ConnectionState} :
    a.permits .initial = true ↔ a = .closed ∨ a = .error := by
  cases a <;> simp [permits]

end ConnectionState

namespace Lifecycle

open ConnectionState (Permits)
open Relation (ReflTransGen)

/-! ## Calls and answers -/

/-- What may be done to a lifecycle, by whomever. -/
inductive Call
  /-- Asks for a transition. -/
  | request (next : ConnectionState)
  /-- Makes the pending state the current one. -/
  | apply
  deriving DecidableEq, Repr

/-- What a call is answered with. -/
inductive Answer
  /-- The transition is pending. -/
  | accepted (next : ConnectionState)
  /-- The transition is not permitted from the state that is pending. -/
  | refused (pending : ConnectionState)
  /-- The pending state is current; it is named if that is a change. -/
  | applied (changed : Option ConnectionState)
  deriving DecidableEq, Repr

/-- The transition that an answer accepts. -/
def Answer.accepted? : Answer → Option ConnectionState
  | accepted next => some next
  | _ => none

/-- The answer to a call, and the lifecycle after it. -/
def call (l : Lifecycle) : Call → Answer × Lifecycle
  | .request next =>
    match l.request next with
    | .ok l' => (.accepted next, l')
    | .error pending => (.refused pending, l)
  | .apply => (.applied l.apply.1, l.apply.2)

/-- The answers to calls that are made one after another. -/
def answers (l : Lifecycle) : List Call → List Answer
  | [] => []
  | call :: calls => (l.call call).1 :: (l.call call).2.answers calls

/-- The lifecycle after calls that are made one after another. -/
def after (l : Lifecycle) : List Call → Lifecycle
  | [] => l
  | call :: calls => (l.call call).2.after calls

section
variable {l : Lifecycle} {next : ConnectionState} {calls : List Call}

/-- A request that is permitted is pending from then on. -/
theorem call_request_of_permits (h : l.desired.permits next = true) :
    l.call (.request next) = (.accepted next, { l with desired := next }) := by
  simp [call, request, h]

/-- A request that is not permitted is answered with what is pending, and changes nothing. -/
theorem call_request_of_not_permits (h : l.desired.permits next = false) :
    l.call (.request next) = (.refused l.desired, l) := by
  simp [call, request, h]

/-- A request is accepted or refused. -/
theorem call_request_cases (l : Lifecycle) (next : ConnectionState) :
    l.desired.permits next = true ∧
        l.call (.request next) = (.accepted next, { l with desired := next }) ∨
      l.desired.permits next = false ∧ l.call (.request next) = (.refused l.desired, l) := by
  cases h : l.desired.permits next with
  | true => exact .inl ⟨rfl, call_request_of_permits h⟩
  | false => exact .inr ⟨rfl, call_request_of_not_permits h⟩

/-- A request is accepted just when it is permitted. -/
theorem call_request_eq_accepted_iff :
    (l.call (.request next)).1 = .accepted next ↔ l.desired.permits next = true := by
  rcases l.call_request_cases next with ⟨hp, hc⟩ | ⟨hp, hc⟩ <;> simp [hp, hc]

/-- Applying what is pending names it if it is not current already. -/
theorem apply_fst (l : Lifecycle) :
    l.apply.1 = if l.current = l.desired then none else some l.desired := by
  unfold apply
  split <;> rfl

/-- A state is named just when it is pending and not current already. -/
theorem apply_fst_eq_some_iff {state : ConnectionState} :
    l.apply.1 = some state ↔ l.current ≠ l.desired ∧ state = l.desired := by
  rw [apply_fst]
  split
  · simp [*]
  · simp [*, eq_comm]

/-- What is pending has been applied. -/
theorem call_apply (l : Lifecycle) :
    l.call .apply = (.applied l.apply.1, ⟨l.desired, l.desired⟩) := by
  rw [← apply_snd]
  rfl

/-! ## The walk -/

/-- The requests that are accepted are permitted one after another, and the last of them is
pending. -/
theorem isChain_accepted (l : Lifecycle) (calls : List Call) :
    List.IsChain Permits (l.desired :: (l.answers calls).filterMap Answer.accepted?) ∧
      ((l.answers calls).filterMap Answer.accepted?).getLastD l.desired =
        (l.after calls).desired := by
  induction calls generalizing l with
  | nil => exact ⟨.singleton _, rfl⟩
  | cons call calls ih =>
    cases call with
    | request next =>
      rcases l.call_request_cases next with ⟨hp, h⟩ | ⟨-, h⟩
      · obtain ⟨hchain, hlast⟩ := ih { l with desired := next }
        rw [answers, after, h]
        exact ⟨.cons_cons hp hchain, (List.getLastD_cons ..).trans hlast⟩
      · rw [answers, after, h]
        exact ih l
    | apply =>
      rw [answers, after, call_apply]
      exact ih ⟨l.desired, l.desired⟩

/-- What is pending can be reached from what is current. -/
theorem reachable_call (h : ReflTransGen Permits l.current l.desired) (c : Call) :
    ReflTransGen Permits (l.call c).2.current (l.call c).2.desired := by
  cases c with
  | request next =>
    rcases l.call_request_cases next with ⟨hp, hc⟩ | ⟨-, hc⟩
    · rw [hc]
      exact h.tail hp
    · rw [hc]
      exact h
  | apply => rw [call_apply]

/-- So it stays. -/
theorem reachable_after (h : ReflTransGen Permits l.current l.desired) (calls : List Call) :
    ReflTransGen Permits (l.after calls).current (l.after calls).desired := by
  induction calls generalizing l with
  | nil => exact h
  | cons c calls ih => exact ih (reachable_call h c)

/-! ## The way out -/

/-- On the way out a call leads further out, and so does what it names as new, as long as it does
not begin anew. -/
theorem isEnding_call {c : Call} (h : l.desired.isEnding = true)
    (hn : (l.call c).1 ≠ .accepted .initial) :
    (l.call c).2.desired.isEnding = true ∧
      ∀ state, (l.call c).1 = .applied (some state) → state.isEnding = true := by
  cases c with
  | request next =>
    rcases l.call_request_cases next with ⟨hp, hc⟩ | ⟨-, hc⟩
    · rw [hc] at hn ⊢
      have hnext : next ≠ .initial := by
        rintro rfl
        exact hn rfl
      exact ⟨ConnectionState.isEnding_of_permits h hp hnext, nofun⟩
    · rw [hc]
      exact ⟨h, nofun⟩
  | apply =>
    rw [call_apply]
    refine ⟨h, fun state hs => ?_⟩
    have hchanged : l.apply.1 = some state := Answer.applied.inj hs
    rw [(apply_fst_eq_some_iff.1 hchanged).2]
    exact h

/-- So it is with calls one after another. -/
theorem isEnding_after (h : l.desired.isEnding = true)
    (hn : .accepted .initial ∉ l.answers calls) :
    (l.after calls).desired.isEnding = true ∧
      ∀ state, .applied (some state) ∈ l.answers calls → state.isEnding = true := by
  induction calls generalizing l with
  | nil => exact ⟨h, fun _ hs => absurd hs List.not_mem_nil⟩
  | cons c calls ih =>
    obtain ⟨hc, hrest⟩ := not_or.1 (fun hor => hn (List.mem_cons.2 hor))
    obtain ⟨hending, hchanged⟩ := isEnding_call h (Ne.symm hc)
    obtain ⟨hafter, hlater⟩ := ih hending hrest
    refine ⟨hafter, fun state hs => ?_⟩
    rcases List.mem_cons.1 hs with hs | hs
    · exact hchanged state hs.symm
    · exact hlater state hs

end

/-- Whatever is asked of a new lifecycle, by whomever and in whatever order, the requests that are
accepted are a walk along the permitted transitions that begins at the first state and ends at the
pending one, which can always be reached from the current one. A request that is refused is answered
with the pending state and changes neither slot. Applying names the pending state just when it is
not current already, and makes it current. Once a request to close has been accepted, only closing
and the two ends can be pending or named, and a request for anything before that is refused, until
one to begin anew is accepted; that is accepted just when an end is pending. -/
theorem requests_walk (before : List Call) :
    (List.IsChain Permits (.initial :: (new.answers before).filterMap Answer.accepted?) ∧
      ((new.answers before).filterMap Answer.accepted?).getLastD .initial =
        (new.after before).desired ∧
      ReflTransGen Permits (new.after before).current (new.after before).desired) ∧
    ∀ l : Lifecycle,
      (∀ next pending, (l.call (.request next)).1 = .refused pending →
        pending = l.desired ∧ (l.call (.request next)).2 = l) ∧
      (∀ next, (l.call (.request next)).1 = .accepted next →
        (l.call (.request next)).2 = ⟨l.current, next⟩) ∧
      (∀ state, (l.call .apply).1 = .applied (some state) ↔
        l.current ≠ l.desired ∧ state = l.desired) ∧
      (l.call .apply).2 = ⟨l.desired, l.desired⟩ ∧
      ((l.call (.request .closing)).1 = .accepted .closing →
        ∀ calls, .accepted .initial ∉ (l.call (.request .closing)).2.answers calls →
          let l' := (l.call (.request .closing)).2.after calls
          l'.desired.isEnding = true ∧
          (∀ state, .applied (some state) ∈ (l.call (.request .closing)).2.answers calls →
            state.isEnding = true) ∧
          (∀ next ∈ [ConnectionState.connecting, .opening, .listening, .connected],
            l'.call (.request next) = (.refused l'.desired, l')) ∧
          ((l'.call (.request .initial)).1 = .accepted .initial ↔
            l'.desired = .closed ∨ l'.desired = .error)) := by
  obtain ⟨hchain, hlast⟩ := new.isChain_accepted before
  refine ⟨⟨hchain, hlast, reachable_after .refl before⟩, fun l => ⟨?_, ?_, ?_, ?_, ?_⟩⟩
  · intro next pending h
    rcases l.call_request_cases next with ⟨-, hc⟩ | ⟨-, hc⟩
    · rw [hc] at h
      cases h
    · rw [hc] at h ⊢
      cases h
      exact ⟨rfl, rfl⟩
  · intro next h
    rcases l.call_request_cases next with ⟨-, hc⟩ | ⟨-, hc⟩
    · rw [hc]
    · rw [hc] at h
      cases h
  · intro state
    rw [call_apply, ← apply_fst_eq_some_iff]
    exact ⟨Answer.applied.inj, congrArg _⟩
  · rw [call_apply]
  · intro hclosing calls hn
    have hstart : (l.call (.request .closing)).2.desired.isEnding = true := by
      rcases l.call_request_cases .closing with ⟨-, hc⟩ | ⟨-, hc⟩
      · rw [hc]
        rfl
      · rw [hc] at hclosing
        cases hclosing
    obtain ⟨hending, hnamed⟩ := isEnding_after hstart hn
    refine ⟨hending, hnamed, fun next hnext => ?_, ?_⟩
    · refine call_request_of_not_permits (ConnectionState.not_permits_of_isEnding hending ?_ ?_)
      · rintro rfl
        simp at hnext
      · revert hnext
        cases next <;> decide
    · rw [call_request_eq_accepted_iff, ConnectionState.permits_initial_iff]

end Lifecycle

end PeerMessaging
