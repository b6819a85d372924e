import Nise.Lib.TupleSpace

/-!
# Barriers on a tuple space

An `RBarrier` is one tuple, with the number of clients that it is for and a count.  A client that
waits takes the tuple out of the space, counts itself and writes it back; then it reads the tuple
with the count that the barrier is for, which it finds once all have arrived.

The count is never set back, and it may be passed over: when one more client arrives before the
others have read the tuple, they never find it again.
-/

namespace Nise.RubyModels.RBarrier

open Nise.Lib

/-- The tuple `[:rbarrier, name, num, count]`. -/
structure Tuple where
  name : String
  num : Int
  count : Int
  deriving DecidableEq, Repr

section Barrier

variable (name : String)

/-- What `init` writes. -/
def init (num : Int) : Tuple := ⟨name, num, 0⟩

/-- Find the tuple with the count that the barrier is for. -/
def pass (num : Int) : Proc Tuple Unit :=
  .read (fun tuple => tuple.name == name && (tuple.num == num && tuple.count == num)) fun _ =>
    .ret ()

def wait : Proc Tuple Unit :=
  .take (fun tuple => tuple.name == name) fun tuple =>
    .write { tuple with count := tuple.count + 1 } (pass name tuple.num)

end Barrier

inductive Call where
  | wait
  deriving DecidableEq, Repr

abbrev BarrierControl := Control Tuple Call Unit

def body (name : String) : Unit → Call → Option (Proc Tuple Unit)
  | (), .wait => some (wait name)

/-- All interleavings of clients of one barrier. -/
def clients {Client : Type} [DecidableEq Client] (name : String) :
    System (Shared Client Tuple Call BarrierControl) (Request Client Tuple Call) :=
  sharing (Control.next (body name))

instance {Client : Type} [DecidableEq Client] (name : String)
    (shared : Shared Client Tuple Call BarrierControl) (request : Request Client Tuple Call) :
    Decidable ((clients name).guard shared request) :=
  inferInstanceAs (Decidable ((sharing (Control.next (body name))).guard shared request))

/-- The barrier has been created in a space with other tuples. -/
def start {Client : Type} (name : String) (num : Int) (others : Multiset Tuple) :
    Shared Client Tuple Call BarrierControl :=
  ⟨init name num ::ₘ others, fun _ => .rest (), []⟩

/-! ## Places in the procedure -/

inductive Place where
  | free
  | waiting
  | counting (num count : Int)
  | arrived (num : Int)
  deriving DecidableEq, Repr

section Places

variable (name : String)

/-- The procedure that is left at a place. -/
def code : Place → BarrierControl
  | .free => .rest ()
  | .waiting => .busy .wait (wait name)
  | .counting num count => .busy .wait (.write ⟨name, num, count + 1⟩ (pass name num))
  | .arrived num => .busy .wait (pass name num)

def places : Behaviour Tuple Call Place
  | .free, .wait, _ => some ⟨.wait, .called, .waiting⟩
  | .waiting, _, tuple =>
      if tuple.name == name then some ⟨.wait, .took tuple, .counting tuple.num tuple.count⟩
      else none
  | .counting num count, _, _ =>
      some ⟨.wait, .wrote ⟨name, num, count + 1⟩, .arrived num⟩
  | .arrived num, _, tuple =>
      if tuple.name == name && (tuple.num == num && tuple.count == num) then
        some ⟨.wait, .saw tuple, .free⟩
      else none

/-- The places are cut out of the procedure. -/
theorem next_code (place : Place) (call : Call) (tuple : Tuple) :
    Control.next (body name) (code name place) call tuple =
      (places name place call tuple).map (Move.map (code name)) := by
  cases place with
  | free => cases call; rfl
  | waiting =>
      refine Control.next_take fun accepted => ?_
      rw [beq_iff_eq] at accepted
      rw [← accepted]
      rfl
  | counting num count => rfl
  | arrived num => exact Control.next_read fun _ => rfl

end Places

/-- What a client can do at each place, with the tuples written out. -/
inductive Goes (name : String) : Place → Move Tuple Call Place → Prop where
  | call : Goes name .free ⟨.wait, .called, .waiting⟩
  | take (num count : Int) :
      Goes name .waiting ⟨.wait, .took ⟨name, num, count⟩, .counting num count⟩
  | write (num count : Int) :
      Goes name (.counting num count)
        ⟨.wait, .wrote ⟨name, num, count + 1⟩, .arrived num⟩
  | pass (num : Int) : Goes name (.arrived num) ⟨.wait, .saw ⟨name, num, num⟩, .free⟩

theorem Goes.of_places {name : String} {place : Place} {call : Call} {tuple : Tuple}
    {move : Move Tuple Call Place} (does : places name place call tuple = some move) :
    Goes name place move := by
  obtain ⟨tupleName, tupleNum, tupleCount⟩ := tuple
  cases place with
  | free => cases call; cases does; exact .call
  | waiting =>
      obtain ⟨accepted, same⟩ := Option.ite_none_right_eq_some.mp does
      cases same
      rw [beq_iff_eq] at accepted
      cases accepted
      exact .take tupleNum tupleCount
  | counting num count => cases does; exact .write num count
  | arrived num =>
      obtain ⟨accepted, same⟩ := Option.ite_none_right_eq_some.mp does
      cases same
      rw [Bool.and_eq_true, Bool.and_eq_true, beq_iff_eq, beq_iff_eq, beq_iff_eq] at accepted
      obtain ⟨named, nums, counts⟩ := accepted
      dsimp only at named nums counts
      rw [named, nums, counts]
      exact .pass num

/-! ## What has been counted -/

section Counts

variable {Client : Type} (acts : List (Act Client Tuple Call))

def Taking : Action Tuple → Prop
  | .took _ => True
  | _ => False

def Counting : Action Tuple → Prop
  | .wrote _ => True
  | _ => False

def Passing : Action Tuple → Prop
  | .saw _ => True
  | _ => False

instance : DecidablePred Taking
  | .took _ => isTrue trivial
  | .called => isFalse id
  | .saw _ => isFalse id
  | .wrote _ => isFalse id

instance : DecidablePred Counting
  | .wrote _ => isTrue trivial
  | .called => isFalse id
  | .saw _ => isFalse id
  | .took _ => isFalse id

instance : DecidablePred Passing
  | .saw _ => isTrue trivial
  | .called => isFalse id
  | .wrote _ => isFalse id
  | .took _ => isFalse id

/-- The calls that have begun to count themselves. -/
def taken : Nat := acts.countP fun act => Taking act.action

/-- The calls that are counted. -/
def counted : Nat := acts.countP fun act => Counting act.action

/-- The calls that have returned. -/
def passed : Nat := acts.countP fun act => Passing act.action

variable [DecidableEq Client] (client : Client)

def countedBy : Nat := acts.countP fun act => act.client = client ∧ Counting act.action

def passedBy : Nat := acts.countP fun act => act.client = client ∧ Passing act.action

end Counts

/-! ## Standing -/

namespace Place

/-- The client has counted itself and has not passed. -/
def between : Place → Nat
  | .arrived _ => 1
  | _ => 0

def isCounting : Place → Bool
  | .counting _ _ => true
  | _ => false

end Place

section Invariant

variable {Client : Type} [DecidableEq Client] {name : String} {num : Int}
  {others : Multiset Tuple}

/-- The tuple is in the space, with the number of calls that are counted, or it is with the one
client that counts itself. -/
inductive Held (name : String) (num : Int) (others : Multiset Tuple)
    (shared : Shared Client Tuple Call Place) : Prop where
  | space (tuples : shared.space = ⟨name, num, counted shared.acts⟩ ::ₘ others)
      (nobody : ∀ client, (shared.control client).isCounting = false)
      (all : taken shared.acts = counted shared.acts)
  | client (holder : Client) (tuples : shared.space = others)
      (holds : shared.control holder = .counting num (counted shared.acts))
      (alone : ∀ client, client ≠ holder → (shared.control client).isCounting = false)
      (more : taken shared.acts = counted shared.acts + 1)

/-- What holds in all interleavings. -/
structure Standing (name : String) (num : Int) (others : Multiset Tuple)
    (shared : Shared Client Tuple Call Place) : Prop where
  held : Held name num others shared
  arrived : ∀ client other, shared.control client = .arrived other → other = num
  own : ∀ client, passedBy shared.acts client + (shared.control client).between =
    countedBy shared.acts client
  together : ∀ before act, before ++ [act] <+: shared.acts → Passing act.action →
    (counted before : Int) = num
  once : passed shared.acts ≤ num.toNat

variable {shared : Shared Client Tuple Call Place} {client : Client}
  {move : Move Tuple Call Place}

theorem taken_perform : taken (shared.perform client move).acts =
    taken shared.acts + if Taking move.action then 1 else 0 :=
  Shared.countP_acts_perform _ shared client move

theorem counted_perform : counted (shared.perform client move).acts =
    counted shared.acts + if Counting move.action then 1 else 0 :=
  Shared.countP_acts_perform _ shared client move

theorem passed_perform : passed (shared.perform client move).acts =
    passed shared.acts + if Passing move.action then 1 else 0 :=
  Shared.countP_acts_perform _ shared client move

/-- A step that leaves the tuple and does not have it does not change who has it. -/
theorem Held.unchanged (held : Held name num others shared)
    (tuples : move.action.apply shared.space = shared.space)
    (before : (shared.control client).isCounting = false)
    (after : move.control.isCounting = false) (takes : ¬ Taking move.action)
    (counts : ¬ Counting move.action) :
    Held name num others (shared.perform client move) := by
  have same : counted (shared.perform client move).acts = counted shared.acts := by
    rw [counted_perform, if_neg counts, Nat.add_zero]
  have also : taken (shared.perform client move).acts = taken shared.acts := by
    rw [taken_perform, if_neg takes, Nat.add_zero]
  cases held with
  | space present nobody all =>
      refine .space ?_ ?_ ?_
      · rw [same]
        exact tuples.trans present
      · intro other
        by_cases own : other = client
        · rw [own, Shared.control_perform_self]
          exact after
        · rw [Shared.control_perform_of_ne _ _ own]
          exact nobody other
      · rw [same, also, all]
  | client holder absent holds alone more =>
      have apart : holder ≠ client := by
        rintro rfl
        rw [holds] at before
        cases before
      refine .client holder (tuples.trans absent) ?_ ?_ ?_
      · rw [Shared.control_perform_of_ne _ _ apart, same]
        exact holds
      · intro other different
        by_cases own : other = client
        · rw [own, Shared.control_perform_self]
          exact after
        · rw [Shared.control_perform_of_ne _ _ own]
          exact alone other different
      · rw [same, also, more]

omit [DecidableEq Client] in
/-- A client that finds the tuple finds it with the number that is counted, and nobody counts
itself. -/
theorem Held.found (held : Held name num others shared)
    (foreign : ∀ tuple ∈ others, tuple.name ≠ name) {otherNum count : Int}
    (member : ⟨name, otherNum, count⟩ ∈ shared.space) :
    (otherNum = num ∧ count = counted shared.acts) ∧
      shared.space = ⟨name, num, counted shared.acts⟩ ::ₘ others ∧
        (∀ client, (shared.control client).isCounting = false) ∧
          taken shared.acts = counted shared.acts := by
  cases held with
  | space present nobody all =>
      have found := member
      rw [present, Multiset.mem_cons] at found
      rcases found with same | other
      · cases same
        exact ⟨⟨rfl, rfl⟩, present, nobody, all⟩
      · exact absurd rfl (foreign _ other)
  | client holder absent holds alone more =>
      rw [absent] at member
      exact absurd rfl (foreign _ member)

theorem Held.perform (held : Held name num others shared)
    (foreign : ∀ tuple ∈ others, tuple.name ≠ name)
    (goes : Goes name (shared.control client) move)
    (possible : move.action.Possible shared.space) :
    Held name num others (shared.perform client move) := by
  generalize place : shared.control client = before at goes
  cases goes with
  | call => exact held.unchanged rfl (by rw [place]; rfl) rfl id id
  | pass otherNum => exact held.unchanged rfl (by rw [place]; rfl) rfl id id
  | take otherNum count =>
      obtain ⟨⟨rfl, rfl⟩, present, nobody, all⟩ := held.found foreign possible
      refine .client client ?_ ?_ ?_ ?_
      · change shared.space.erase _ = _
        rw [present, Multiset.erase_cons_head]
      · rw [Shared.control_perform_self, counted_perform]
        rfl
      · intro other apart
        rw [Shared.control_perform_of_ne _ _ apart]
        exact nobody other
      · rw [taken_perform, counted_perform, all]
        rfl
  | write otherNum count =>
      cases held with
      | space present nobody all =>
          have free := nobody client
          rw [place] at free
          cases free
      | client holder absent holds alone more =>
          have own : client = holder := by
            by_contra apart
            have free := alone client apart
            rw [place] at free
            cases free
          rw [← own, place] at holds
          cases holds
          refine .space ?_ ?_ ?_
          · rw [counted_perform]
            change _ ::ₘ shared.space = _
            rw [absent]
            rfl
          · intro other
            by_cases same : other = client
            · rw [same, Shared.control_perform_self]
              rfl
            · rw [Shared.control_perform_of_ne _ _ same]
              exact alone other fun equal => same (equal.trans own.symm)
          · rw [taken_perform, counted_perform, more]
            rfl

omit [DecidableEq Client] in
/-- Who counts itself has found the tuple. -/
theorem Held.counting (held : Held name num others shared) {otherNum count : Int}
    (counts : shared.control client = .counting otherNum count) : otherNum = num := by
  cases held with
  | space present nobody all =>
      have free := nobody client
      rw [counts] at free
      cases free
  | client holder absent holds alone more =>
      by_cases own : client = holder
      · rw [← own, counts] at holds
        cases holds
        rfl
      · have free := alone client own
        rw [counts] at free
        cases free

theorem Goes.between {place : Place} (goes : Goes name place move) :
    (if Passing move.action then 1 else 0) + move.control.between =
      place.between + if Counting move.action then 1 else 0 := by
  cases goes with
  | call => rfl
  | take otherNum count => rfl
  | write otherNum count => rfl
  | pass otherNum => rfl

theorem Goes.arrives {place : Place} (goes : Goes name place move) {otherNum : Int}
    (arrives : move.control = .arrived otherNum) : ∃ count, place = .counting otherNum count := by
  cases goes with
  | call => cases arrives
  | take otherNum count => cases arrives
  | write otherNum count =>
      cases arrives
      exact ⟨count, rfl⟩
  | pass otherNum => cases arrives

theorem Goes.passes {place : Place} (goes : Goes name place move) (passes : Passing move.action) :
    ∃ otherNum, place = .arrived otherNum ∧ move.action = .saw ⟨name, otherNum, otherNum⟩ := by
  cases goes with
  | call => exact passes.elim
  | take otherNum count => exact passes.elim
  | write otherNum count => exact passes.elim
  | pass otherNum => exact ⟨otherNum, rfl, rfl⟩

/-- A client passes when as many calls are counted as the barrier is for. -/
theorem Standing.passes (standing : Standing name num others shared)
    (foreign : ∀ tuple ∈ others, tuple.name ≠ name)
    (goes : Goes name (shared.control client) move)
    (possible : move.action.Possible shared.space) (passes : Passing move.action) :
    (counted shared.acts : Int) = num := by
  obtain ⟨otherNum, -, saw⟩ := goes.passes passes
  rw [saw] at possible
  obtain ⟨⟨same, count⟩, -⟩ := standing.held.found foreign possible
  exact count.symm.trans same

theorem Standing.perform_own (standing : Standing name num others shared)
    (goes : Goes name (shared.control client) move) (other : Client) :
    passedBy (shared.perform client move).acts other +
        ((shared.perform client move).control other).between =
      countedBy (shared.perform client move).acts other := by
  have before := standing.own other
  unfold passedBy countedBy at before ⊢
  rw [Shared.countP_acts_perform, Shared.countP_acts_perform]
  dsimp only
  by_cases same : other = client
  · rw [same] at before ⊢
    rw [Shared.control_perform_self]
    have own := goes.between
    simp only [true_and]
    omega
  · rw [Shared.control_perform_of_ne _ _ same, if_neg fun both => same both.1.symm,
      if_neg fun both => same both.1.symm]
    exact before

/-- With a client that has not passed, fewer calls have returned than are counted. -/
theorem Standing.passed_lt [Fintype Client] (standing : Standing name num others shared)
    {otherNum : Int} (arrived : shared.control client = .arrived otherNum) :
    passed shared.acts < counted shared.acts := by
  have passes : ∑ other, passedBy shared.acts other = passed shared.acts :=
    sum_countP_acts (fun act => Passing act.action) shared.acts
  have counts : ∑ other, countedBy shared.acts other = counted shared.acts :=
    sum_countP_acts (fun act => Counting act.action) shared.acts
  rw [← passes, ← counts]
  refine Finset.sum_lt_sum (fun other _ => ?_) ⟨client, Finset.mem_univ client, ?_⟩
  · have own := standing.own other
    omega
  · have own := standing.own client
    rw [arrived] at own
    change _ + 1 = _ at own
    omega

theorem Standing.perform [Fintype Client] (standing : Standing name num others shared)
    (foreign : ∀ tuple ∈ others, tuple.name ≠ name)
    (goes : Goes name (shared.control client) move)
    (possible : move.action.Possible shared.space) :
    Standing name num others (shared.perform client move) := by
  refine ⟨standing.held.perform foreign goes possible, ?_, standing.perform_own goes, ?_, ?_⟩
  · intro other otherNum arrived
    by_cases own : other = client
    · rw [own, Shared.control_perform_self] at arrived
      obtain ⟨count, counts⟩ := goes.arrives arrived
      exact standing.held.counting counts
    · rw [Shared.control_perform_of_ne _ _ own] at arrived
      exact standing.arrived other otherNum arrived
  · intro before act within passes
    rw [Shared.acts_perform, List.prefix_concat_iff] at within
    rcases within with last | earlier
    · obtain ⟨same, equal⟩ := List.append_inj' last rfl
      cases equal
      rw [same]
      exact standing.passes foreign goes possible passes
    · exact standing.together before act earlier passes
  · rw [passed_perform]
    by_cases passes : Passing move.action
    · rw [if_pos passes]
      obtain ⟨otherNum, arrived, -⟩ := goes.passes passes
      have fewer := standing.passed_lt arrived
      have all := standing.passes foreign goes possible passes
      omega
    · rw [if_neg passes]
      exact standing.once

theorem standing_start : Standing name num others
    (⟨init name num ::ₘ others, fun _ => .free, []⟩ : Shared Client Tuple Call Place) := by
  refine ⟨.space rfl (fun _ => rfl) rfl, ?_, fun _ => rfl, ?_, Nat.zero_le _⟩
  · intro client other arrived
    cases arrived
  · intro before act within
    have empty := List.prefix_nil.mp within
    exact absurd empty (List.append_ne_nil_of_right_ne_nil before (List.cons_ne_nil act []))

end Invariant

/-! ## The barrier opens once -/

section Opening

variable {Client : Type} [DecidableEq Client] [Fintype Client] {name : String} {num : Int}
  {others : Multiset Tuple}

/-- What the barrier does: every call that returns finds as many calls counted as the barrier is
for, so that no more than these return; a call that has counted itself can return if that is the
count, and no other call is counting itself; and then they all can. -/
structure Opens (name : String) (num : Int)
    (shared : Shared Client Tuple Call BarrierControl) : Prop where
  together : ∀ before act, before ++ [act] <+: shared.acts → Passing act.action →
    (counted before : Int) = num
  once : passed shared.acts ≤ num.toNat
  waits : ∀ client other, shared.control client = .busy .wait (pass name other) →
    ((∃ call tuple, (clients name).guard shared ⟨client, call, tuple⟩) ↔
      (counted shared.acts : Int) = num ∧ taken shared.acts = counted shared.acts)
  opens : (counted shared.acts : Int) = num → taken shared.acts = counted shared.acts →
    ∃ after, Reaches (Control.next (body name)) shared after ∧ passed after.acts = num.toNat

omit [DecidableEq Client] [Fintype Client] in
theorem Held.space_of_all {shared : Shared Client Tuple Call Place}
    (held : Held name num others shared) (all : taken shared.acts = counted shared.acts) :
    shared.space = ⟨name, num, counted shared.acts⟩ ::ₘ others := by
  cases held with
  | space present nobody _ => exact present
  | client holder absent holds alone more =>
      rw [more] at all
      exact absurd all (Nat.succ_ne_self _)

/-- The move of a client that finds the tuple with the count that the barrier is for. -/
def returning (name : String) (num : Int) : Move Tuple Call Place :=
  ⟨.wait, .saw ⟨name, num, num⟩, .free⟩

theorem places_arrived (name : String) (num : Int) :
    places name (.arrived num) .wait ⟨name, num, num⟩ = some (returning name num) := by
  refine if_pos ?_
  simp

omit [Fintype Client] in
theorem Standing.waits_iff {shared : Shared Client Tuple Call Place}
    (standing : Standing name num others shared)
    (foreign : ∀ tuple ∈ others, tuple.name ≠ name) {client : Client} {other : Int}
    (arrived : shared.control client = .arrived other) :
    (∃ call tuple, (sharing (places name)).guard shared ⟨client, call, tuple⟩) ↔
      (counted shared.acts : Int) = num ∧ taken shared.acts = counted shared.acts := by
  constructor
  · rintro ⟨call, tuple, move, does, possible⟩
    dsimp only at does
    rw [arrived] at does
    cases Goes.of_places does with
    | pass =>
        obtain ⟨⟨same, count⟩, -, -, all⟩ := standing.held.found foreign possible
        exact ⟨count.symm.trans same, all⟩
  · rintro ⟨count, all⟩
    have present := standing.held.space_of_all all
    have same := standing.arrived client other arrived
    refine ⟨.wait, ⟨name, num, num⟩, returning name num, ?_, ?_⟩
    · dsimp only
      rw [arrived, same]
      exact places_arrived name num
    · change (⟨name, num, num⟩ : Tuple) ∈ shared.space
      rw [present, count]
      exact Multiset.mem_cons_self _ _

/-- Whoever has not returned does so, one after the other. -/
theorem Standing.opens (foreign : ∀ tuple ∈ others, tuple.name ≠ name) (left : Nat)
    {start shared : Shared Client Tuple Call Place} (reaches : Reaches (places name) start shared)
    (standing : Standing name num others shared) (count : (counted shared.acts : Int) = num)
    (all : taken shared.acts = counted shared.acts)
    (missing : passed shared.acts + left = num.toNat) :
    ∃ after, Reaches (places name) start after ∧ passed after.acts = num.toNat := by
  induction left generalizing shared with
  | zero => exact ⟨shared, reaches, missing⟩
  | succ left ih =>
      have passes : ∑ other, passedBy shared.acts other = passed shared.acts :=
        sum_countP_acts (fun act => Passing act.action) shared.acts
      have counts : ∑ other, countedBy shared.acts other = counted shared.acts :=
        sum_countP_acts (fun act => Counting act.action) shared.acts
      have fewer : ∑ other, passedBy shared.acts other < ∑ other, countedBy shared.acts other := by
        rw [passes, counts]
        omega
      obtain ⟨client, -, behind⟩ := Finset.exists_lt_of_sum_lt fewer
      have own := standing.own client
      have arrived : shared.control client = .arrived num := by
        cases place : shared.control client with
        | arrived other => rw [standing.arrived client other place]
        | free =>
            rw [place] at own
            exact absurd own (Nat.ne_of_lt behind)
        | waiting =>
            rw [place] at own
            exact absurd own (Nat.ne_of_lt behind)
        | counting other count =>
            rw [place] at own
            exact absurd own (Nat.ne_of_lt behind)
      have does : places name (shared.control client) .wait ⟨name, num, num⟩ =
          some (returning name num) := by
        rw [arrived]
        exact places_arrived name num
      have possible : (returning name num).action.Possible shared.space := by
        change (⟨name, num, num⟩ : Tuple) ∈ shared.space
        rw [standing.held.space_of_all all, count]
        exact Multiset.mem_cons_self _ _
      apply ih (reaches.perform .wait ⟨name, num, num⟩ does possible)
      · exact standing.perform foreign (Goes.of_places does) possible
      · rw [counted_perform]
        exact count
      · rw [counted_perform, taken_perform]
        exact all
      · rw [passed_perform]
        change passed shared.acts + 1 + left = _
        omega

theorem pass_inj {first second : Int} (same : pass name first = pass name second) :
    first = second := by
  have accepts := congrFun (Proc.read.inj same).1 ⟨name, second, second⟩
  simp only [beq_self_eq_true, Bool.true_and, Bool.and_self, beq_iff_eq] at accepts
  exact accepts.symm

theorem code_eq_pass {place : Place} {other : Int}
    (same : code name place = .busy .wait (pass name other)) : place = .arrived other := by
  cases place with
  | arrived num => rw [pass_inj (Control.busy.inj same).2]
  | free => cases same
  | waiting => cases same
  | counting num count => cases same

theorem opens_of_standing {shared : Shared Client Tuple Call Place}
    (standing : Standing name num others shared)
    (foreign : ∀ tuple ∈ others, tuple.name ≠ name) : Opens name num (shared.map (code name)) := by
  have acts := shared.acts_map (code name)
  refine ⟨?_, ?_, ?_, ?_⟩
  · rw [acts]
    exact standing.together
  · rw [acts]
    exact standing.once
  · intro client other waits
    have arrived : shared.control client = .arrived other := code_eq_pass waits
    rw [acts, ← standing.waits_iff foreign arrived]
    exact exists_congr fun call => exists_congr fun tuple =>
      guard_map (next_code name) shared ⟨client, call, tuple⟩
  · rw [acts]
    intro count all
    have once := standing.once
    obtain ⟨after, reaches, passes⟩ := Standing.opens foreign (num.toNat - passed shared.acts)
      (.refl shared) standing count all (by omega)
    refine ⟨after.map (code name), reaches.map (next_code name), ?_⟩
    rw [after.acts_map (code name)]
    exact passes

/-- In all interleavings of any number of clients that wait at a barrier, any number of times. -/
theorem barrier_opens_once (foreign : ∀ tuple ∈ others, tuple.name ≠ name)
    {requests : List (Request Client Tuple Call)}
    (admitted : (clients name).Admits (start name num others) requests) :
    Opens name num ((clients name).exec (start name num others) requests) := by
  let begun : Shared Client Tuple Call Place :=
    ⟨init name num ::ₘ others, fun _ => .free, []⟩
  obtain ⟨admits, same⟩ := sharing_map (next_code name) begun requests
  have standing := sharing_invariant (Standing name num others)
    (fun shared client call tuple move standing does possible =>
      standing.perform foreign (Goes.of_places does) possible)
    standing_start (admits.mp admitted)
  have opens := opens_of_standing standing foreign
  rw [← same] at opens
  exact opens

namespace TwoClients

/-- Two clients arrive, and one of them has passed. -/
def requests : List (Request Bool Tuple Call) :=
  let step (client : Bool) (count : Int) : Request Bool Tuple Call :=
    ⟨client, .wait, ⟨"barrier", 2, count⟩⟩
  [step false 0, step false 0, step false 0, step true 0, step true 1, step true 0,
    step false 2]

theorem barrier_opens_once_requests :
    Opens "barrier" 2 ((clients "barrier").exec (start "barrier" 2 {⟨"other", 1, 0⟩}) requests) :=
  barrier_opens_once (by decide) (by decide)

end TwoClients

end Opening

end Nise.RubyModels.RBarrier
