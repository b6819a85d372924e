import Mathlib.Data.List.InsertIdx
import Nise.Dispatcherd.PubSubDispatch
import Nise.Lib.FanOut

/-!
# A network of dispatchers

Copies of messages are in flight to dispatchers, and any dispatcher may process the
next one.  A copy that is put on a handler goes to what is at the far end of it, a model
or another dispatcher.
-/

namespace Nise.Dispatcherd

open Nise.Ace Nise.Core Nise.Lib

/-- The far end of a handler's connection. -/
inductive Endpoint where
  | model (mid : UInt32)
  | dispatcher (node : UInt32)
  deriving DecidableEq, Repr

structure Site where
  dispatcher : Dispatcher
  far : Handler → Endpoint

/-- A copy on its way to a dispatcher, with the number of links between dispatchers that it
has crossed. -/
structure Copy where
  node : UInt32
  event : Option MessageBlock
  header : SamsonHeader
  hops : Nat
  deriving DecidableEq, Repr

/-- A copy that was put on the handler of a model. -/
structure Delivery where
  mid : UInt32
  event : Option MessageBlock
  header : SamsonHeader
  deriving DecidableEq, Repr

structure Network where
  inFlight : List Copy
  sent : List Delivery
  deriving DecidableEq, Repr

/-- A dispatcher, in some state of its tables, processes the copy at a position. -/
structure Turn where
  position : Nat
  site : Site

namespace Site

def deliveries (site : Site) (actions : List Action) : List Delivery :=
  actions.filterMap fun
    | .put ch event header =>
        match site.far ch with
        | .model mid => some ⟨mid, event, header⟩
        | .dispatcher _ => none
    | _ => none

def relays (site : Site) (hops : Nat) (actions : List Action) : List Copy :=
  actions.filterMap fun
    | .put ch event header =>
        match site.far ch with
        | .model _ => none
        | .dispatcher node => some ⟨node, event, header, hops + 1⟩
    | _ => none

theorem deliveries_append (site : Site) (first second : List Action) :
    site.deliveries (first ++ second) = site.deliveries first ++ site.deliveries second :=
  List.filterMap_append

theorem relays_append (site : Site) (hops : Nat) (first second : List Action) :
    site.relays hops (first ++ second) = site.relays hops first ++ site.relays hops second :=
  List.filterMap_append

variable {site : Site} {data : Option MessageBlock} {header : SamsonHeader}

/-- Messages put on the handlers of models are delivered to these models. -/
theorem sends_to_models {Item : Type*} (items : List Item) (act : Item → List Action)
    (mid : Item → UInt32) (hops : Nat)
    (leads : ∀ item ∈ items, ∃ ch, act item = [.put ch data header] ∧
      site.far ch = .model (mid item)) :
    site.deliveries (items.flatMap act) = items.map (fun item => ⟨mid item, data, header⟩) ∧
      site.relays hops (items.flatMap act) = [] := by
  induction items with
  | nil => exact ⟨rfl, rfl⟩
  | cons item rest ih =>
      obtain ⟨ch, single, leadsTo⟩ := leads item List.mem_cons_self
      obtain ⟨delivered, relayed⟩ :=
        ih fun other member => leads other (List.mem_cons_of_mem _ member)
      rw [List.flatMap_cons, deliveries_append, relays_append, delivered, relayed, single]
      simp only [deliveries, relays, List.filterMap_cons, List.filterMap_nil, leadsTo,
        List.map_cons, List.singleton_append, List.append_nil, and_self]

/-- Messages put on the handlers of other dispatchers are in flight to these. -/
theorem sends_to_dispatchers (nodes : List UInt32) (act : UInt32 → List Action) (hops : Nat)
    (leads : ∀ node ∈ nodes, ∃ ch, act node = [.put ch data header] ∧
      site.far ch = .dispatcher node) :
    site.relays hops (nodes.flatMap act) = nodes.map (fun node => ⟨node, data, header, hops + 1⟩) ∧
      site.deliveries (nodes.flatMap act) = [] := by
  induction nodes with
  | nil => exact ⟨rfl, rfl⟩
  | cons node rest ih =>
      obtain ⟨ch, single, leadsTo⟩ := leads node List.mem_cons_self
      obtain ⟨relayed, delivered⟩ :=
        ih fun other member => leads other (List.mem_cons_of_mem _ member)
      rw [List.flatMap_cons, deliveries_append, relays_append, delivered, relayed, single]
      simp only [deliveries, relays, List.filterMap_cons, List.filterMap_nil, leadsTo,
        List.map_cons, List.singleton_append, List.append_nil, and_self]

/-- Actions for the models of the node, and for other dispatchers unless the message has
been relayed before. -/
theorem sends_near_and_far {near far : List Action} {models : List Delivery} {others : List Copy}
    {hops : Nat} (relayed : Prop) [Decidable relayed]
    (toModels : site.deliveries near = models ∧ site.relays hops near = [])
    (toOthers : site.relays hops far = others ∧ site.deliveries far = []) :
    site.deliveries (near ++ if relayed then [] else far) = models ∧
      site.relays hops (near ++ if relayed then [] else far) =
        if relayed then [] else others := by
  rw [deliveries_append, relays_append, toModels.1, toModels.2, List.nil_append]
  split
  · exact ⟨List.append_nil models, rfl⟩
  · rw [toOthers.1, toOthers.2, List.append_nil]
    exact ⟨rfl, rfl⟩

end Site

namespace Network

def step (network : Network) (turn : Turn) : Network :=
  match network.inFlight[turn.position]? with
  | none => network
  | some copy =>
      let actions := (turn.site.dispatcher.process copy.event copy.header).1
      { inFlight := network.inFlight.eraseIdx turn.position ++ turn.site.relays copy.hops actions
        sent := network.sent ++ turn.site.deliveries actions }

/-- The dispatchers process copies in any order; at each node a site of the given kind. -/
def traffic (Sites : UInt32 → Site → Prop) : System Network Turn where
  step := step
  guard network turn :=
    ∃ copy, network.inFlight[turn.position]? = some copy ∧ Sites copy.node turn.site

theorem step_of_getElem? {network : Network} {turn : Turn} {copy : Copy}
    (found : network.inFlight[turn.position]? = some copy) :
    network.step turn =
      { inFlight := network.inFlight.eraseIdx turn.position ++
          turn.site.relays copy.hops (turn.site.dispatcher.process copy.event copy.header).1
        sent := network.sent ++
          turn.site.deliveries (turn.site.dispatcher.process copy.event copy.header).1 } := by
  unfold step
  rw [found]

end Network

end Nise.Dispatcherd
