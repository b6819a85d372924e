import Mathlib.Algebra.Order.BigOperators.Group.Finset
import Mathlib.Algebra.Order.Ring.Nat
import Mathlib.Data.Int.GCD
import Nise.Lib.Broadcast
import Nise.Lib.Run

/-!
# The hot potato

The taters of a job stand in a ring and pass one message on.  A tater subscribes to the messages of
the tater before it, or to those of all taters, and then leaves alone what is not for it.  The first
tater starts the game when all have come up, and stops the simulation when it has been called as
often as it was told.
-/

namespace Nise.Models

open Nise.Lib

/-- The unit that passed the potato, which is also the unit in the header, and how often it had been
called. -/
structure TaterMsg where
  tater : Nat
  count : BitVec 32
  deriving DecidableEq, Repr

structure Tater where
  unitId : Nat
  maxTaters : Nat
  maxPasses : BitVec 32
  subscribeAllTaters : Bool
  callbackCount : BitVec 32
  deriving DecidableEq, Repr

inductive TaterDeed where
  | publish (msg : TaterMsg)
  | stopSimulation
  deriving DecidableEq, Repr

namespace Tater

variable (tater : Tater)

def subscribeTo : Nat :=
  if tater.unitId ≠ 1 then tater.unitId - 1 else tater.maxTaters

/-- What `init` subscribes to: a unit, or 0 for all units. -/
def subscription : Nat :=
  if tater.subscribeAllTaters then 0 else tater.subscribeTo

def passTheTater (msg : TaterMsg) : Tater × Option TaterDeed :=
  let tater := { tater with callbackCount := tater.callbackCount + 1 }
  if tater.subscribeAllTaters && tater.subscribeTo ≠ msg.tater then
    -- NOT FOR ME
    (tater, none)
  else if tater.callbackCount = tater.maxPasses ∧ tater.unitId = 1 then
    (tater, some .stopSimulation)
  else
    (tater, some (.publish ⟨tater.unitId, tater.callbackCount⟩))

/-- Without all peers the timer is set again. -/
def initWaitForAll (peersStarted : Bool) : Option TaterMsg :=
  if peersStarted then some ⟨tater.unitId, 0⟩ else none

end Tater

/-- A job of taters, each of which is told how many there are. -/
structure TaterJob where
  count : Nat
  maxPasses : BitVec 32
  subscribeAllTaters : Bool
  positive : 0 < count

namespace TaterJob

variable (job : TaterJob)

/-- A tater after `init`. -/
def tater (unit : Nat) : Tater where
  unitId := unit
  maxTaters := job.count
  maxPasses := job.maxPasses
  subscribeAllTaters := job.subscribeAllTaters
  callbackCount := 0

def Has (unit : Nat) : Prop := 1 ≤ unit ∧ unit ≤ job.count

instance (unit : Nat) : Decidable (job.Has unit) := inferInstanceAs (Decidable (_ ∧ _))

/-- The messages that a tater has subscribed to.  Its own are routed back to it like the others. -/
def wants (unit : Nat) (msg : TaterMsg) : Bool :=
  job.Has unit ∧ ((job.tater unit).subscription = 0 ∨ (job.tater unit).subscription = msg.tater)

end TaterJob

structure HotPotato where
  taters : Nat → Tater
  waiting : Bool
  channel : Broadcast Nat TaterMsg
  stops : Nat

namespace HotPotato

/-- All taters have been initialised, and the first one waits for the others. -/
def start (job : TaterJob) : HotPotato where
  taters := job.tater
  waiting := true
  channel := .empty
  stops := 0

inductive Event where
  /-- The first tater asks whether all peers have started. -/
  | timeout (peersStarted : Bool)
  /-- A tater is called with one of the messages on their way to it. -/
  | deliver (unit place : Nat)
  deriving DecidableEq, Repr

/-- Messages do not overtake each other. -/
def Event.First : Event → Prop
  | .timeout _ => True
  | .deliver _ place => place = 0

variable (job : TaterJob) (game : HotPotato)

def perform : Option TaterDeed → HotPotato
  | none => game
  | some (.publish msg) => { game with channel := game.channel.publish job.wants msg }
  | some .stopSimulation => { game with stops := game.stops + 1 }

def start? (peersStarted : Bool) : HotPotato :=
  match (game.taters 1).initWaitForAll peersStarted with
  | none => game
  | some msg => { game with waiting := false, channel := game.channel.publish job.wants msg }

def call (unit place : Nat) (msg : TaterMsg) : HotPotato :=
  let passed := (game.taters unit).passTheTater msg
  { game with
    taters := Function.update game.taters unit passed.1
    channel := game.channel.take unit place msg }.perform job passed.2

def step : Event → HotPotato
  | .timeout peersStarted => game.start? job peersStarted
  | .deliver unit place =>
      match (game.channel.pending unit)[place]? with
      | none => game
      | some msg => game.call job unit place msg

def Guard : Event → Prop
  | .timeout _ => game.waiting = true
  | .deliver unit place => place < (game.channel.pending unit).length

instance (event : Event) : Decidable (game.Guard event) := by
  cases event <;> unfold Guard <;> infer_instance

end HotPotato

/-- Runs of a job, in which messages may overtake each other. -/
def passing (job : TaterJob) : System HotPotato HotPotato.Event where
  step := HotPotato.step job
  guard := HotPotato.Guard

instance (job : TaterJob) (game : HotPotato) (event : HotPotato.Event) :
    Decidable ((passing job).guard game event) :=
  inferInstanceAs (Decidable (game.Guard event))

section Ring

variable {job : TaterJob} {game : HotPotato}

/-- Whose turn it is to be called with the potato. -/
def HotPotato.turn (job : TaterJob) (game : HotPotato) : Nat :=
  game.channel.published.length % job.count + 1

/-- The message that was published last is the potato, until the simulation is stopped. -/
def HotPotato.potato (game : HotPotato) : List TaterMsg :=
  if game.stops = 0 then game.channel.published.getLast?.toList else []

/-- The messages for a tater from the tater before it. -/
def TaterJob.isFor (job : TaterJob) (unit : Nat) (msg : TaterMsg) : Bool :=
  msg.tater = (job.tater unit).subscribeTo

theorem TaterJob.subscribeTo_pos {unit : Nat} (has : job.Has unit) :
    0 < (job.tater unit).subscribeTo := by
  obtain ⟨one, -⟩ := has
  have positive := job.positive
  unfold Tater.subscribeTo TaterJob.tater
  dsimp only
  split <;> omega

theorem TaterJob.wants_of_isFor {unit : Nat} {msg : TaterMsg} (has : job.Has unit)
    (own : job.isFor unit msg = true) : job.wants unit msg = true := by
  refine decide_eq_true ⟨has, ?_⟩
  unfold Tater.subscription
  split
  · exact .inl rfl
  · exact .inr (of_decide_eq_true own).symm

/-- Only a tater that subscribed to all of them is called with a message that is not for it. -/
theorem TaterJob.subscribeAll_of_wants {unit : Nat} {msg : TaterMsg}
    (wanted : job.wants unit msg = true) (other : job.isFor unit msg = false) :
    job.subscribeAllTaters = true := by
  obtain ⟨has, subscribed⟩ := of_decide_eq_true wanted
  by_contra none
  have own : (job.tater unit).subscription = (job.tater unit).subscribeTo := if_neg none
  rw [own] at subscribed
  rcases subscribed with zero | same
  · exact Nat.ne_of_gt (TaterJob.subscribeTo_pos has) zero
  · exact of_decide_eq_false other same.symm

theorem succ_mod (position count : Nat) (positive : 0 < count) :
    (position + 1) % count =
      if position % count + 1 = count then 0 else position % count + 1 := by
  have less := Nat.mod_lt position positive
  rw [Nat.add_mod_eq_ite]
  rcases Nat.lt_or_ge 1 count with more | one
  · rw [Nat.mod_eq_of_lt more]
    split <;> split <;> omega
  · have same : count = 1 := by omega
    subst same
    rw [Nat.mod_one]
    rfl

/-- A message of the tater at one turn is for the tater at the next. -/
theorem TaterJob.subscribeTo_eq_iff {unit : Nat} (has : job.Has unit) (position : Nat) :
    position % job.count + 1 = (job.tater unit).subscribeTo ↔
      unit = (position + 1) % job.count + 1 := by
  obtain ⟨one, most⟩ := has
  have less := Nat.mod_lt position job.positive
  rw [succ_mod position job.count job.positive]
  unfold Tater.subscribeTo TaterJob.tater
  dsimp only
  split <;> split <;> omega

/-- A tater that has been called a number of times. -/
def TaterJob.called (job : TaterJob) (unit times : Nat) : Tater :=
  { job.tater unit with callbackCount := BitVec.ofNat 32 times }

/-- What is known of a game in which messages may overtake each other, wherever the potato is. -/
structure Kept (job : TaterJob) (game : HotPotato) : Prop where
  taters : ∀ unit, game.taters unit = job.called unit (game.channel.taken unit).length
  delivers : game.channel.Delivers job.wants
  turns : game.channel.published.map (·.tater) =
    (List.range game.channel.published.length).map (· % job.count + 1)

/-- The potato is on its way to the tater whose turn it is. -/
structure Standing (job : TaterJob) (game : HotPotato) : Prop extends Kept job game where
  waiting : game.waiting = true ↔ game.channel.published = []
  stopped : game.stops ≠ 0 → game.stops = 1 ∧ game.channel.published ≠ [] ∧
    game.channel.published.length % job.count = 0
  flying : ∀ unit, job.Has unit → (game.channel.pending unit).filter (job.isFor unit) =
    if unit = game.turn job then game.potato else []

theorem standing_start (job : TaterJob) : Standing job (.start job) where
  taters _ := rfl
  delivers := Broadcast.delivers_empty
  turns := rfl
  waiting := ⟨fun _ => rfl, fun _ => rfl⟩
  stopped none := absurd rfl none
  flying _ _ := (ite_self _).symm

/-- The tater whose turn it is publishes the potato anew. -/
theorem Kept.publish (kept : Kept job game) {msg : TaterMsg}
    (turn : msg.tater = game.turn job) (idle : game.stops = 0) (begun : game.waiting = false)
    (none : ∀ unit, job.Has unit → (game.channel.pending unit).filter (job.isFor unit) = []) :
    Standing job { game with channel := game.channel.publish job.wants msg } where
  taters := kept.taters
  delivers := kept.delivers.publish msg
  turns := by
    rw [Broadcast.publish_published, List.map_append, kept.turns, List.length_append,
      List.length_singleton, List.range_succ, List.map_append, List.map_singleton,
      List.map_singleton, turn]
    rfl
  waiting := ⟨fun waits => absurd (begun.symm.trans waits) Bool.false_ne_true,
    fun empty => absurd empty (List.append_ne_nil_of_right_ne_nil _ (List.cons_ne_nil _ _))⟩
  stopped some := absurd idle some
  flying unit has := by
    have potato : HotPotato.potato { game with channel := game.channel.publish job.wants msg } =
        [msg] := by
      refine (if_pos idle).trans ?_
      rw [Broadcast.publish_published, List.getLast?_concat]
      rfl
    rw [potato, Broadcast.publish_pending, List.filter_append, none unit has, List.nil_append,
      List.filter_filter]
    have own : job.isFor unit msg = true ↔ unit = HotPotato.turn job
        { game with channel := game.channel.publish job.wants msg } := by
      unfold TaterJob.isFor HotPotato.turn
      rw [decide_eq_true_iff, turn, Broadcast.publish_published, List.length_append]
      exact TaterJob.subscribeTo_eq_iff has _
    by_cases next : unit = HotPotato.turn job
        { game with channel := game.channel.publish job.wants msg }
    · have is := own.mpr next
      rw [if_pos next, List.filter_cons_of_pos]
      · rfl
      · rw [is, TaterJob.wants_of_isFor has is]
        rfl
    · have other : job.isFor unit msg = false := Bool.eq_false_iff.mpr fun is => next (own.mp is)
      rw [if_neg next, List.filter_cons_of_neg]
      · rfl
      · rw [other]
        exact Bool.false_ne_true

theorem HotPotato.potato_eq (game : HotPotato) :
    game.potato = [] ∨ ∃ msg, game.potato = [msg] ∧ game.stops = 0 ∧
      game.channel.published.getLast? = some msg := by
  unfold potato
  split
  · next idle =>
      cases last : game.channel.published.getLast? with
      | none => exact .inl rfl
      | some msg => exact .inr ⟨msg, rfl, idle, rfl⟩
  · exact .inl rfl

/-- The tater whose turn it is finds the potato, and finds it alone. -/
theorem Standing.potato_of_isFor (standing : Standing job game) {unit place : Nat} {msg : TaterMsg}
    (has : job.Has unit) (found : (game.channel.pending unit)[place]? = some msg)
    (own : job.isFor unit msg = true) :
    unit = game.turn job ∧ game.stops = 0 ∧ game.channel.published.getLast? = some msg ∧
      ((game.channel.pending unit).eraseIdx place).filter (job.isFor unit) = [] := by
  have kept := (Broadcast.perm_of_getElem? found).filter (job.isFor unit)
  rw [List.filter_cons_of_pos own, standing.flying unit has] at kept
  by_cases next : unit = game.turn job
  · rw [if_pos next] at kept
    rcases game.potato_eq with none | ⟨last, potato, idle, published⟩
    · rw [none] at kept
      exact absurd kept.eq_nil (List.cons_ne_nil _ _)
    · rw [potato] at kept
      obtain ⟨same, rest⟩ := List.cons_eq_cons.mp kept.eq_singleton
      exact ⟨next, idle, same ▸ published, rest⟩
  · rw [if_neg next] at kept
    exact absurd kept.eq_nil (List.cons_ne_nil _ _)

/-- A message that is not for the tater leaves the potato where it is. -/
theorem Standing.flying_of_other (standing : Standing job game) {unit place : Nat} {msg : TaterMsg}
    (has : job.Has unit) (found : (game.channel.pending unit)[place]? = some msg)
    (other : job.isFor unit msg = false) :
    ((game.channel.pending unit).eraseIdx place).filter (job.isFor unit) =
      if unit = game.turn job then game.potato else [] := by
  have kept := (Broadcast.perm_of_getElem? found).filter (job.isFor unit)
  rw [List.filter_cons_of_neg (Bool.eq_false_iff.mp other), standing.flying unit has] at kept
  by_cases next : unit = game.turn job
  · rw [if_pos next] at kept ⊢
    rcases game.potato_eq with none | ⟨last, potato, -, -⟩
    · rw [none] at kept ⊢
      exact kept.eq_nil
    · rw [potato] at kept ⊢
      exact kept.eq_singleton
  · rw [if_neg next] at kept ⊢
    exact kept.eq_nil

/-- A tater that has been called once more with what was pending for it. -/
def HotPotato.received (game : HotPotato) (unit place : Nat) (msg : TaterMsg) : HotPotato :=
  { game with
    taters := Function.update game.taters unit ((game.taters unit).passTheTater msg).1
    channel := game.channel.take unit place msg }

theorem Tater.passTheTater_fst (tater : Tater) (msg : TaterMsg) :
    (tater.passTheTater msg).1 = { tater with callbackCount := tater.callbackCount + 1 } := by
  unfold passTheTater
  dsimp only
  split
  · rfl
  · split <;> rfl

theorem Kept.received (kept : Kept job game) {unit place : Nat} {msg : TaterMsg}
    (found : (game.channel.pending unit)[place]? = some msg) :
    Kept job (game.received unit place msg) where
  taters other := by
    change Function.update game.taters unit _ other =
      job.called other ((game.channel.take unit place msg).taken other).length
    by_cases same : other = unit
    · subst same
      rw [Function.update_self, Tater.passTheTater_fst, kept.taters other,
        Broadcast.take_taken_self, List.length_append, List.length_singleton]
      unfold TaterJob.called
      rw [BitVec.ofNat_add]
      rfl
    · rw [Function.update_of_ne same, kept.taters other, Broadcast.take_taken_other same]
  delivers := kept.delivers.take found
  turns := kept.turns

/-- A message that is not for the tater is counted, and that is all. -/
theorem TaterJob.passTheTater_of_other {unit : Nat} {msg : TaterMsg} (times : Nat)
    (wanted : job.wants unit msg = true) (other : job.isFor unit msg = false) :
    ((job.called unit times).passTheTater msg).2 = none := by
  have all := TaterJob.subscribeAll_of_wants wanted other
  have apart : (job.tater unit).subscribeTo ≠ msg.tater := Ne.symm (of_decide_eq_false other)
  have passed : (job.subscribeAllTaters &&
      decide ((job.tater unit).subscribeTo ≠ msg.tater)) = true := by
    rw [all, decide_eq_true apart]
    rfl
  unfold Tater.passTheTater
  exact congrArg Prod.snd (if_pos passed)

/-- The potato is passed on, unless it has come back to the first tater for the last time. -/
theorem TaterJob.passTheTater_of_isFor {unit : Nat} {msg : TaterMsg} (times : Nat)
    (own : job.isFor unit msg = true) :
    ((job.called unit times).passTheTater msg).2 =
      if BitVec.ofNat 32 (times + 1) = job.maxPasses ∧ unit = 1 then some .stopSimulation
      else some (.publish ⟨unit, BitVec.ofNat 32 (times + 1)⟩) := by
  have same : (job.tater unit).subscribeTo = msg.tater := (of_decide_eq_true own).symm
  have mine : ¬ (job.subscribeAllTaters &&
      decide ((job.tater unit).subscribeTo ≠ msg.tater)) = true := by
    rw [decide_eq_false (fun apart => apart same), Bool.and_false]
    exact Bool.false_ne_true
  unfold Tater.passTheTater
  refine (congrArg Prod.snd (if_neg mine)).trans ?_
  rw [BitVec.ofNat_add]
  exact apply_ite Prod.snd _ _ _

theorem HotPotato.step_deliver {unit place : Nat} {msg : TaterMsg}
    (found : (game.channel.pending unit)[place]? = some msg) :
    game.step job (.deliver unit place) = game.call job unit place msg := by
  simp only [step, found]

theorem HotPotato.step_timeout {peersStarted : Bool} {msg : TaterMsg}
    (started : (game.taters 1).initWaitForAll peersStarted = some msg) :
    game.step job (.timeout peersStarted) =
      { game with waiting := false, channel := game.channel.publish job.wants msg } := by
  simp only [step, start?, started]

/-- The first tater starts the game. -/
theorem Kept.started (kept : Kept job game) :
    (game.taters 1).initWaitForAll true = some ⟨1, 0⟩ := by
  rw [kept.taters 1]
  rfl

/-- What a tater does when it is called with the potato. -/
theorem HotPotato.call_eq_of_isFor (kept : Kept job game) {unit : Nat} (place : Nat)
    {msg : TaterMsg} (own : job.isFor unit msg = true) :
    game.call job unit place msg = (game.received unit place msg).perform job
      (if BitVec.ofNat 32 ((game.channel.taken unit).length + 1) = job.maxPasses ∧ unit = 1
        then some .stopSimulation
        else some (.publish ⟨unit, BitVec.ofNat 32 ((game.channel.taken unit).length + 1)⟩)) := by
  rw [← TaterJob.passTheTater_of_isFor _ own, ← kept.taters unit]
  rfl

theorem HotPotato.call_eq_of_other (kept : Kept job game) {unit : Nat} (place : Nat)
    {msg : TaterMsg} (wanted : job.wants unit msg = true) (other : job.isFor unit msg = false) :
    game.call job unit place msg = game.received unit place msg := by
  have none := TaterJob.passTheTater_of_other (game.channel.taken unit).length wanted other
  rw [← kept.taters unit] at none
  exact congrArg ((game.received unit place msg).perform job) none

theorem Standing.call (standing : Standing job game) {unit place : Nat} {msg : TaterMsg}
    (found : (game.channel.pending unit)[place]? = some msg) :
    Standing job (game.call job unit place msg) := by
  obtain ⟨published, wanted⟩ := standing.delivers.wanted (List.mem_of_getElem? found)
  have has : job.Has unit := (of_decide_eq_true wanted).1
  have kept : Kept job (game.received unit place msg) := standing.toKept.received found
  cases own : job.isFor unit msg with
  | false =>
      rw [HotPotato.call_eq_of_other standing.toKept place wanted own]
      refine ⟨kept, standing.waiting, standing.stopped, fun other hasOther => ?_⟩
      change ((game.channel.take unit place msg).pending other).filter _ = _
      by_cases same : other = unit
      · subst same
        rw [Broadcast.take_pending_self]
        exact standing.flying_of_other hasOther found own
      · rw [Broadcast.take_pending_other same]
        exact standing.flying other hasOther
  | true =>
      obtain ⟨turn, idle, last, rest⟩ := standing.potato_of_isFor has found own
      have nowhere : ∀ other, job.Has other →
          ((game.received unit place msg).channel.pending other).filter (job.isFor other) = [] := by
        intro other hasOther
        change ((game.channel.take unit place msg).pending other).filter _ = _
        by_cases same : other = unit
        · subst same
          rw [Broadcast.take_pending_self, rest]
        · rw [Broadcast.take_pending_other same, standing.flying other hasOther,
            if_neg fun next => same (next.trans turn.symm)]
      have some : game.channel.published ≠ [] := List.ne_nil_of_mem published
      rw [HotPotato.call_eq_of_isFor standing.toKept place own]
      split
      · next final =>
          have round : game.channel.published.length % job.count = 0 := by
            have first : 1 = game.channel.published.length % job.count + 1 :=
              final.2.symm.trans turn
            omega
          refine ⟨⟨kept.taters, kept.delivers, kept.turns⟩, standing.waiting, fun _ => ?_, ?_⟩
          · exact ⟨congrArg (· + 1) idle, some, round⟩
          · intro other hasOther
            refine (nowhere other hasOther).trans ?_
            exact (ite_self _).symm
      · next further =>
          refine kept.publish turn idle ?_ nowhere
          exact Bool.eq_false_iff.mpr fun waits => some (standing.waiting.mp waits)

/-- One step of a game. -/
theorem Standing.step (standing : Standing job game) {event : HotPotato.Event}
    (guarded : game.Guard event) : Standing job (game.step job event) := by
  cases event with
  | timeout peersStarted =>
      cases peersStarted with
      | false => exact standing
      | true =>
          have empty := standing.waiting.mp guarded
          have idle : game.stops = 0 := by
            by_contra stops
            exact (standing.stopped stops).2.1 empty
          have nowhere : ∀ unit, job.Has unit →
              (game.channel.pending unit).filter (job.isFor unit) = [] := by
            intro unit has
            have potato : game.potato = [] := by
              unfold HotPotato.potato
              rw [empty]
              exact ite_self _
            rw [standing.flying unit has, potato]
            exact ite_self _
          have turn : 1 = game.turn job := by
            unfold HotPotato.turn
            rw [empty]
            rfl
          have begun : Kept job { game with waiting := false } :=
            ⟨standing.taters, standing.delivers, standing.turns⟩
          rw [HotPotato.step_timeout standing.started]
          exact begun.publish turn idle rfl nowhere
  | deliver unit place =>
      have found := List.getElem?_eq_getElem guarded
      rw [HotPotato.step_deliver found]
      exact standing.call found

theorem standing_of_admitted {events : List HotPotato.Event}
    (admitted : (passing job).Admits (.start job) events) :
    Standing job ((passing job).exec (.start job) events) :=
  (passing job).invariant (fun _ _ standing guarded => standing.step guarded)
    (standing_start job) admitted

/-- Until the simulation is stopped, there is something to be done. -/
theorem Standing.goesOn (standing : Standing job game) (idle : game.stops = 0) :
    game.Guard (.timeout true) ∨
      job.Has (game.turn job) ∧ game.Guard (.deliver (game.turn job) 0) := by
  cases waits : game.waiting with
  | true => exact .inl waits
  | false =>
      right
      have has : job.Has (game.turn job) := ⟨Nat.le_add_left .., Nat.mod_lt _ job.positive⟩
      refine ⟨has, ?_⟩
      have some : game.channel.published ≠ [] := fun empty =>
        Bool.false_ne_true (waits.symm.trans (standing.waiting.mpr empty))
      have flies := standing.flying _ has
      have potato : game.potato = [game.channel.published.getLast some] := by
        refine (if_pos idle).trans ?_
        rw [List.getLast?_eq_some_getLast some]
        rfl
      rw [if_pos rfl, potato] at flies
      refine List.length_pos_of_mem (a := game.channel.published.getLast some) ?_
      exact List.mem_of_mem_filter (flies ▸ List.mem_cons_self)

/-- Nothing is published once the simulation has been stopped. -/
theorem Standing.finished (standing : Standing job game) (stopped : game.stops ≠ 0)
    {later : List HotPotato.Event} (admitted : (passing job).Admits game later) :
    ((passing job).exec game later).channel.published = game.channel.published := by
  refine ((passing job).invariant
    (fun reached event (inv : Standing job reached ∧ reached.stops ≠ 0 ∧
      reached.channel.published = game.channel.published) guarded => ?_)
    ⟨standing, stopped, rfl⟩ admitted).2.2
  obtain ⟨still, ended, same⟩ := inv
  refine ⟨still.step guarded, ?_⟩
  cases event with
  | timeout peersStarted => exact absurd (still.waiting.mp guarded) (still.stopped ended).2.1
  | deliver unit place =>
      have found := List.getElem?_eq_getElem guarded
      have member := still.delivers.wanted (List.mem_of_getElem? found)
      have has : job.Has unit := (of_decide_eq_true member.2).1
      have other : job.isFor unit _ = false := Bool.eq_false_iff.mpr fun own =>
        ended (still.potato_of_isFor has found own).2.1
      have called : (passing job).step reached (.deliver unit place) =
          reached.received unit place _ :=
        (HotPotato.step_deliver found).trans
          (HotPotato.call_eq_of_other still.toKept place member.2 other)
      rw [called]
      exact ⟨ended, same⟩

/-- There is one potato, and the taters have it in turn. -/
structure OnePotato (job : TaterJob) (game : HotPotato) : Prop where
  /-- The taters publish one after the other, round after round. -/
  turns : game.channel.published.map (·.tater) =
    (List.range game.channel.published.length).map (· % job.count + 1)
  /-- Of all messages on their way to any tater from the tater before it, there is only the one that
  was published last, and none at all once the simulation has been stopped. -/
  flying : ∀ unit, job.Has unit → (game.channel.pending unit).filter (job.isFor unit) =
    if unit = game.turn job then game.potato else []
  /-- The simulation is stopped at most once, and at the end of a round. -/
  stops : game.stops ≤ 1
  round : game.stops = 1 → game.channel.published ≠ [] ∧
    job.count ∣ game.channel.published.length
  finished : game.stops = 1 → ∀ later, (passing job).Admits game later →
    ((passing job).exec game later).channel.published = game.channel.published
  goesOn : game.stops = 0 → game.Guard (.timeout true) ∨
    job.Has (game.turn job) ∧ game.Guard (.deliver (game.turn job) 0)

/-- Even if messages overtake each other, and however long the taters take to come up. -/
theorem one_potato {events : List HotPotato.Event}
    (admitted : (passing job).Admits (.start job) events) :
    OnePotato job ((passing job).exec (.start job) events) := by
  have standing := standing_of_admitted admitted
  refine ⟨standing.turns, standing.flying, ?_, fun once => ?_, fun once later => ?_,
    standing.goesOn⟩
  · by_contra more
    have once := (standing.stopped (by omega)).1
    omega
  · obtain ⟨-, some, round⟩ := standing.stopped (by omega)
    exact ⟨some, Nat.dvd_of_mod_eq_zero round⟩
  · exact standing.finished (by omega)

end Ring

namespace ThreeTaters

def job : TaterJob where
  count := 3
  maxPasses := 1
  subscribeAllTaters := true
  positive := by decide

/-- The first tater waits for its peers, and is called with its own message after it has got the
potato back. -/
def events : List HotPotato.Event :=
  [.timeout false, .timeout true, .deliver 3 0, .deliver 2 0, .deliver 3 0, .deliver 1 2,
    .deliver 1 0]

theorem one_potato_events :
    OnePotato job ((passing job).exec (.start job) events) :=
  one_potato (by decide)

end ThreeTaters

section Rounds

variable {job : TaterJob} {game : HotPotato}

/-- How many messages of one round a tater is called with. -/
def TaterJob.width (job : TaterJob) : Nat := if job.subscribeAllTaters then job.count else 1

/-- The first tater has been called as often as it was told after so many rounds. -/
def TaterJob.Ends (job : TaterJob) (rounds : Nat) : Prop :=
  BitVec.ofNat 32 (job.width * rounds) = job.maxPasses

/-- Runs of a job in which no message overtakes another one. -/
def passingInOrder (job : TaterJob) : System HotPotato HotPotato.Event :=
  (passing job).restrict fun _ event => event.First

theorem countP_range_mod (count : Nat) (positive : 0 < count) (length : Nat) :
    (List.range length).countP (fun position => decide (position % count + 1 = count)) =
      length / count := by
  induction length with
  | zero => exact (Nat.zero_div count).symm
  | succ length ih =>
      rw [List.range_succ, List.countP_append, ih, Nat.succ_div, List.countP_singleton]
      have last : length % count + 1 = count ↔ count ∣ length + 1 := by
        rw [Nat.dvd_iff_mod_eq_zero, succ_mod length count positive]
        split <;> simp_all
      simp only [last, decide_eq_true_eq]

/-- How many messages the first tater is called with in a number of rounds. -/
theorem Kept.wanted_length (kept : Kept job game) {rounds : Nat}
    (round : game.channel.published.length = job.count * rounds) :
    (game.channel.published.filter (job.wants 1)).length = job.width * rounds := by
  have has : job.Has 1 := ⟨Nat.le_refl _, job.positive⟩
  unfold TaterJob.width
  split
  · next all =>
      rw [List.filter_eq_self.mpr, round]
      intro msg _
      exact decide_eq_true ⟨has, .inl (if_pos all)⟩
  · next one =>
      have wanted (msg : TaterMsg) : job.wants 1 msg = decide (msg.tater = job.count) := by
        have own : (job.tater 1).subscription = job.count := if_neg one
        unfold TaterJob.wants
        rw [own]
        refine decide_eq_decide.mpr ⟨?_, fun same => ⟨has, .inr same.symm⟩⟩
        rintro ⟨-, zero | same⟩
        · exact absurd zero (Nat.ne_of_gt job.positive)
        · exact same.symm
      have counted : (game.channel.published.map (·.tater)).countP (· = job.count) =
          game.channel.published.length / job.count := by
        rw [kept.turns, List.countP_map]
        exact countP_range_mod job.count job.positive _
      rw [← List.countP_eq_length_filter, funext wanted, Nat.one_mul]
      rw [List.countP_map, round, Nat.mul_div_cancel_left _ job.positive] at counted
      exact counted

/-- What is known of a game in which no message overtakes another one. -/
structure InRounds (job : TaterJob) (game : HotPotato) : Prop extends Standing job game where
  inOrder : game.channel.InOrder job.wants
  before : ∀ rounds, 0 < rounds → job.count * rounds < game.channel.published.length →
    ¬ job.Ends rounds
  last : game.stops ≠ 0 → ∀ rounds, game.channel.published.length = job.count * rounds →
    job.Ends rounds

theorem inRounds_start (job : TaterJob) : InRounds job (.start job) where
  toStanding := standing_start job
  inOrder := Broadcast.inOrder_empty
  before _ _ less := absurd less (Nat.not_lt_zero _)
  last none := absurd rfl none

/-- When the potato has come back to the first tater, it has been called with all that it wants. -/
theorem InRounds.taken_length (inRounds : InRounds job game) {msg : TaterMsg}
    (found : (game.channel.pending 1)[0]? = some msg) (own : job.isFor 1 msg = true)
    {rounds : Nat} (round : game.channel.published.length = job.count * rounds) :
    (game.channel.taken 1).length + 1 = job.width * rounds := by
  have has : job.Has 1 := ⟨Nat.le_refl _, job.positive⟩
  obtain ⟨-, -, last, alone⟩ := inRounds.potato_of_isFor has found own
  have ordered := inRounds.inOrder 1
  obtain ⟨before, published⟩ := List.getLast?_eq_some_iff.mp last
  cases pending : game.channel.pending 1 with
  | nil =>
      rw [pending] at found
      cases found
  | cons head rest =>
      rw [pending] at found alone ordered
      cases found
      have none : rest = [] := by
        by_contra some
        -- what is wanted ends with the potato, and so does what is pending behind it
        have ends := congrArg List.getLast? ordered
        rw [List.getLast?_append_of_ne_nil _ (List.cons_ne_nil _ _),
          List.getLast?_cons_of_ne_nil some, published, List.filter_append,
          List.filter_cons_of_pos (TaterJob.wants_of_isFor has own), List.filter_nil,
          List.getLast?_concat] at ends
        have among : msg ∈ rest.filter (job.isFor 1) :=
          List.mem_filter.mpr ⟨List.mem_of_getLast? ends, own⟩
        have empty : rest.filter (job.isFor 1) = [] := alone
        rw [empty] at among
        exact List.not_mem_nil among
      rw [← inRounds.wanted_length round, ← ordered, none, List.length_append,
        List.length_singleton]

theorem InRounds.call (inRounds : InRounds job game) {unit : Nat} {msg : TaterMsg}
    (found : (game.channel.pending unit)[0]? = some msg) :
    InRounds job (game.call job unit 0 msg) := by
  have standing := inRounds.toStanding.call found
  have wanted := (inRounds.delivers.wanted (List.mem_of_getElem? found)).2
  have has : job.Has unit := (of_decide_eq_true wanted).1
  have received := inRounds.inOrder.take found
  cases own : job.isFor unit msg with
  | false =>
      have called := HotPotato.call_eq_of_other inRounds.toKept 0 wanted own
      rw [called] at standing ⊢
      exact ⟨standing, received, inRounds.before, inRounds.last⟩
  | true =>
      obtain ⟨turn, idle, -, -⟩ := inRounds.potato_of_isFor has found own
      have called := HotPotato.call_eq_of_isFor inRounds.toKept 0 own
      rw [called] at standing ⊢
      split at standing
      · next final =>
          obtain ⟨enough, rfl⟩ := final
          rw [if_pos ⟨enough, rfl⟩]
          refine ⟨standing, received, inRounds.before, fun _ rounds round => ?_⟩
          rw [inRounds.taken_length found own round] at enough
          exact enough
      · next further =>
          rw [if_neg further]
          refine ⟨standing, received.publish _, fun rounds some less => ?_,
            fun stopped => absurd idle stopped⟩
          change job.count * rounds < (game.channel.published ++ [_]).length at less
          rw [List.length_append, List.length_singleton] at less
          rcases Nat.lt_or_eq_of_le (Nat.le_of_lt_succ less) with before | round
          · exact inRounds.before rounds some before
          · intro ends
            have first : unit = 1 := by
              rw [turn]
              unfold HotPotato.turn
              rw [← round, Nat.mul_mod_right]
            subst first
            refine further ⟨?_, rfl⟩
            rw [inRounds.taken_length found own round.symm]
            exact ends

theorem InRounds.step (inRounds : InRounds job game) {event : HotPotato.Event}
    (guarded : game.Guard event) (first : event.First) : InRounds job (game.step job event) := by
  have standing := inRounds.toStanding.step guarded
  cases event with
  | timeout peersStarted =>
      cases peersStarted with
      | false => exact inRounds
      | true =>
          have empty := inRounds.waiting.mp guarded
          rw [HotPotato.step_timeout inRounds.started] at standing ⊢
          refine ⟨standing, inRounds.inOrder.publish _, fun rounds some less => ?_,
            fun stopped => absurd empty (inRounds.stopped stopped).2.1⟩
          change job.count * rounds < (game.channel.published ++ [_]).length at less
          rw [empty] at less
          have positive := Nat.mul_pos job.positive some
          exact absurd less (Nat.not_lt.mpr positive)
  | deliver unit place =>
      obtain rfl : place = 0 := first
      have found := List.getElem?_eq_getElem guarded
      rw [HotPotato.step_deliver found]
      exact inRounds.call found

theorem inRounds_of_admitted {events : List HotPotato.Event}
    (admitted : (passingInOrder job).Admits (.start job) events) :
    InRounds job ((passingInOrder job).exec (.start job) events) :=
  (passingInOrder job).invariant (fun _ _ inRounds guarded => inRounds.step guarded.1 guarded.2)
    (inRounds_start job) admitted

/-- A game without overtaking is over after the first number of rounds that ends it. -/
structure EndsInTime (job : TaterJob) (game : HotPotato) : Prop where
  most : ∀ rounds, 0 < rounds → job.Ends rounds →
    game.channel.published.length ≤ job.count * rounds
  final : game.stops = 1 → ∃ rounds, 0 < rounds ∧ job.Ends rounds ∧
    game.channel.published.length = job.count * rounds ∧
    ∀ earlier, 0 < earlier → earlier < rounds → ¬ job.Ends earlier

theorem InRounds.endsInTime (inRounds : InRounds job game) : EndsInTime job game where
  most rounds some ends := Nat.le_of_not_lt fun more => inRounds.before rounds some more ends
  final once := by
    have stopped : game.stops ≠ 0 := by omega
    obtain ⟨-, some, whole⟩ := inRounds.stopped stopped
    obtain ⟨rounds, round⟩ := Nat.dvd_of_mod_eq_zero whole
    have positive : 0 < rounds := by
      refine Nat.pos_of_ne_zero fun zero => some ?_
      rw [zero] at round
      exact List.eq_nil_of_length_eq_zero round
    refine ⟨rounds, positive, inRounds.last stopped rounds round, round, ?_⟩
    intro earlier begun less
    refine inRounds.before earlier begun ?_
    rw [round]
    exact Nat.mul_lt_mul_of_pos_left less job.positive

/-- Whether some number of rounds ends the game, with a counter that starts anew after `2 ^ 32`. -/
theorem TaterJob.exists_ends_iff (job : TaterJob) :
    (∃ rounds, 0 < rounds ∧ job.Ends rounds) ↔
      job.width.gcd (2 ^ 32) ∣ job.maxPasses.toNat := by
  have ends_iff (rounds : Nat) :
      job.Ends rounds ↔ job.width * rounds % 2 ^ 32 = job.maxPasses.toNat := by
    unfold TaterJob.Ends
    rw [← BitVec.toNat_inj, BitVec.toNat_ofNat]
  constructor
  · rintro ⟨rounds, -, ends⟩
    rw [← (ends_iff rounds).mp ends]
    refine (Nat.dvd_mod_iff (Nat.gcd_dvd_right _ _)).mpr ?_
    exact (Nat.gcd_dvd_left _ _).mul_right rounds
  · rintro ⟨quotient, passes⟩
    have below := job.maxPasses.isLt
    rcases Nat.lt_or_ge (job.width.gcd (2 ^ 32)) (2 ^ 32) with less | whole
    · obtain ⟨factor, -, reaches⟩ := Nat.exists_mul_mod_eq_gcd less
      refine ⟨factor * quotient + 2 ^ 32, Nat.add_pos_right _ (by decide), (ends_iff _).mpr ?_⟩
      rw [Nat.mul_add, Nat.add_mul_mod_self_right, ← Nat.mul_assoc, Nat.mul_mod, reaches,
        Nat.mul_mod_mod, ← passes]
      exact Nat.mod_eq_of_lt below
    · refine ⟨1, Nat.one_pos, (ends_iff 1).mpr ?_⟩
      have same : job.width.gcd (2 ^ 32) = 2 ^ 32 :=
        Nat.le_antisymm (Nat.le_of_dvd (by decide) (Nat.gcd_dvd_right _ _)) whole
      have multiple : 2 ^ 32 ∣ job.width * 1 :=
        (same ▸ Nat.gcd_dvd_left job.width (2 ^ 32)).mul_right 1
      rw [Nat.mod_eq_zero_of_dvd multiple]
      rw [same] at passes
      omega

/-- How much has been done: the start, and every call. -/
def HotPotato.work (job : TaterJob) (game : HotPotato) : Nat :=
  (if game.waiting then 0 else 1) +
    ∑ unit ∈ Finset.range (job.count + 1), (game.channel.taken unit).length

theorem InRounds.work_le (inRounds : InRounds job game) {most : Nat}
    (bounded : game.channel.published.length ≤ most) :
    game.work job ≤ 1 + (job.count + 1) * most := by
  have each (unit : Nat) : (game.channel.taken unit).length ≤ most := by
    have ordered := congrArg List.length (inRounds.inOrder unit)
    rw [List.length_append] at ordered
    have fewer := List.length_filter_le (job.wants unit) game.channel.published
    omega
  have total : ∑ unit ∈ Finset.range (job.count + 1), (game.channel.taken unit).length ≤
      (Finset.range (job.count + 1)).card * most :=
    Finset.sum_le_card_nsmul _ _ most fun unit _ => each unit
  rw [Finset.card_range] at total
  unfold HotPotato.work
  split <;> omega

theorem HotPotato.perform_frame (game : HotPotato) (job : TaterJob) (deed : Option TaterDeed) :
    (game.perform job deed).waiting = game.waiting ∧
      (game.perform job deed).channel.taken = game.channel.taken := by
  cases deed with
  | none => exact ⟨rfl, rfl⟩
  | some deed => cases deed <;> exact ⟨rfl, rfl⟩

/-- A call is work. -/
theorem HotPotato.work_call {unit place : Nat} (msg : TaterMsg) (has : job.Has unit) :
    game.work job < (game.call job unit place msg).work job := by
  obtain ⟨waiting, taken⟩ := HotPotato.perform_frame (game.received unit place msg) job
    ((game.taters unit).passTheTater msg).2
  have same : (game.call job unit place msg).waiting = game.waiting := waiting
  have more : (game.call job unit place msg).channel.taken =
      (game.channel.take unit place msg).taken := taken
  have member : unit ∈ Finset.range (job.count + 1) :=
    Finset.mem_range.mpr (Nat.lt_succ_of_le has.2)
  unfold HotPotato.work
  rw [same, more]
  refine Nat.add_lt_add_left (Finset.sum_lt_sum (fun other _ => ?_) ⟨unit, member, ?_⟩) _
  · by_cases own : other = unit
    · subst own
      rw [Broadcast.take_taken_self, List.length_append]
      exact Nat.le_add_right ..
    · rw [Broadcast.take_taken_other own]
  · rw [Broadcast.take_taken_self, List.length_append]
    exact Nat.lt_succ_self _

theorem InRounds.progress (inRounds : InRounds job game) (unfinished : game.stops ≠ 1) :
    ∃ event, (passingInOrder job).guard game event ∧
      InRounds job ((passingInOrder job).step game event) ∧
      game.work job < ((passingInOrder job).step game event).work job := by
  have idle : game.stops = 0 := by
    by_contra stopped
    exact unfinished (inRounds.stopped stopped).1
  rcases inRounds.goesOn idle with waits | ⟨has, guarded⟩
  · refine ⟨.timeout true, ⟨waits, trivial⟩, inRounds.step waits trivial, ?_⟩
    change game.work job < (game.step job (.timeout true)).work job
    rw [HotPotato.step_timeout inRounds.started]
    have waiting : game.waiting = true := waits
    unfold HotPotato.work
    rw [waiting]
    exact Nat.add_lt_add_right Nat.one_pos _
  · refine ⟨.deliver (game.turn job) 0, ⟨guarded, rfl⟩, inRounds.step guarded rfl, ?_⟩
    have found := List.getElem?_eq_getElem guarded
    change game.work job < (game.step job (.deliver (game.turn job) 0)).work job
    rw [HotPotato.step_deliver found]
    exact HotPotato.work_call _ has

/--
Where no message overtakes another one, the game ends in the first round after which the first
tater has been called as often as it was told; it can always be brought there, if there is such a
round at all.  With the messages of the tater before it alone that is always so; with those of all
taters their number has to fit.
-/
theorem potato_stops_iff (job : TaterJob) :
    (∀ events, (passingInOrder job).Admits (.start job) events →
      EndsInTime job ((passingInOrder job).exec (.start job) events)) ∧
    (job.width.gcd (2 ^ 32) ∣ job.maxPasses.toNat →
      ∀ events, (passingInOrder job).Admits (.start job) events →
        ∃ later,
          (passingInOrder job).Admits ((passingInOrder job).exec (.start job) events) later ∧
            ((passingInOrder job).exec (.start job) (events ++ later)).stops = 1) ∧
    (¬ job.width.gcd (2 ^ 32) ∣ job.maxPasses.toNat →
      ∀ events, (passingInOrder job).Admits (.start job) events →
        ((passingInOrder job).exec (.start job) events).stops = 0) := by
  refine ⟨fun events admitted => (inRounds_of_admitted admitted).endsInTime,
    fun fits events admitted => ?_, fun never events admitted => ?_⟩
  · obtain ⟨rounds, positive, ends⟩ := job.exists_ends_iff.mpr fits
    obtain ⟨later, goes, -, done⟩ := (passingInOrder job).exists_finishing (InRounds job)
      (fun game => game.stops = 1) (HotPotato.work job)
      (1 + (job.count + 1) * (job.count * rounds))
      (fun game inRounds => inRounds.work_le (inRounds.endsInTime.most rounds positive ends))
      (fun game inRounds unfinished => inRounds.progress unfinished)
      (inRounds_of_admitted admitted)
    refine ⟨later, goes, ?_⟩
    rw [(passingInOrder job).exec_append]
    exact done
  · have inRounds := inRounds_of_admitted admitted
    by_contra stopped
    obtain ⟨rounds, positive, ends, -⟩ :=
      inRounds.endsInTime.final (inRounds.stopped stopped).1
    exact never (job.exists_ends_iff.mp ⟨rounds, positive, ends⟩)

end Rounds

end Nise.Models
