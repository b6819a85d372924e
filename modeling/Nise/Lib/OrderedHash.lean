import Mathlib.Data.List.Basic
import Mathlib.Data.List.Induction
import Mathlib.Data.List.Nodup

/-!
# Hashes of lists that keep the order of their keys

The keys of such a hash stand in the order in which they were inserted, and under each key is
the list of the values that were pushed there.  The hash of a list of pairs says what is in a
hash after any number of pushes and after keys have been deleted.
-/

namespace Nise.Lib.OrderedHash

variable {Key Value : Type*} [DecidableEq Key]

/-- Append a value to the list of a key; a key that is not there yet is inserted at the end. -/
def push (hash : List (Key × List Value)) (key : Key) (value : Value) :
    List (Key × List Value) :=
  if key ∈ hash.map Prod.fst then
    hash.map fun entry => if entry.1 = key then (entry.1, entry.2 ++ [value]) else entry
  else hash ++ [(key, [value])]

/-- The keys of some pairs, each where it comes first. -/
def keys (pairs : List (Key × Value)) : List Key := (pairs.map Prod.fst).eraseDups

/-- The values of a key, in the order of the pairs. -/
def values (pairs : List (Key × Value)) (key : Key) : List Value :=
  (pairs.filter fun pair => pair.1 = key).map Prod.snd

/-- The hash of some pairs. -/
def grouped (pairs : List (Key × Value)) : List (Key × List Value) :=
  (keys pairs).map fun key => (key, values pairs key)

/-! ## Keys -/

@[simp] theorem mem_keys {pairs : List (Key × Value)} {key : Key} :
    key ∈ keys pairs ↔ key ∈ pairs.map Prod.fst :=
  List.mem_eraseDups

theorem keys_concat (pairs : List (Key × Value)) (key : Key) (value : Value) :
    keys (pairs ++ [(key, value)]) =
      if key ∈ pairs.map Prod.fst then keys pairs else keys pairs ++ [key] := by
  unfold keys
  rw [List.map_append, List.eraseDups_append]
  split
  · next old => simp [List.removeAll, old]
  · next new => simp [List.removeAll, new, List.eraseDups_cons]

theorem nodup_keys (pairs : List (Key × Value)) : (keys pairs).Nodup := by
  induction pairs using List.reverseRecOn with
  | nil => exact List.nodup_nil
  | append_singleton pairs pair ih =>
      rw [keys_concat]
      split
      · exact ih
      · next new =>
          rw [List.nodup_append]
          refine ⟨ih, List.nodup_singleton _, ?_⟩
          rintro key member _ last rfl
          rw [List.mem_singleton.mp last] at member
          exact new (mem_keys.mp member)

/-- Deleting keys is leaving out their pairs. -/
theorem keys_filter (keep : Key → Bool) (pairs : List (Key × Value)) :
    keys (pairs.filter fun pair => keep pair.1) = (keys pairs).filter keep := by
  induction pairs using List.reverseRecOn with
  | nil => rfl
  | append_singleton pairs pair ih =>
      obtain ⟨key, value⟩ := pair
      rw [List.filter_append, keys_concat]
      by_cases kept : keep key = true
      · have same : key ∈ (pairs.filter fun pair => keep pair.1).map Prod.fst ↔
            key ∈ pairs.map Prod.fst := by
          simp [kept]
        have last : [(key, value)].filter (fun pair => keep pair.1) = [(key, value)] := by
          simp [kept]
        rw [last, keys_concat, ih]
        by_cases old : key ∈ pairs.map Prod.fst
        · rw [if_pos old, if_pos (same.mpr old)]
        · rw [if_neg old, if_neg (mt same.mp old), List.filter_append]
          simp [kept]
      · have none : [(key, value)].filter (fun pair => keep pair.1) = [] := by
          simp [kept]
        rw [none, List.append_nil, ih]
        split
        · rfl
        · simp [kept]

/-! ## Values -/

theorem values_concat_self (pairs : List (Key × Value)) (key : Key) (value : Value) :
    values (pairs ++ [(key, value)]) key = values pairs key ++ [value] := by
  simp [values]

theorem values_concat_of_ne (pairs : List (Key × Value)) {key other : Key} (apart : other ≠ key)
    (value : Value) : values (pairs ++ [(key, value)]) other = values pairs other := by
  simp [values, Ne.symm apart]

theorem values_filter (keep : Key → Bool) (pairs : List (Key × Value)) {key : Key}
    (kept : keep key = true) :
    values (pairs.filter fun pair => keep pair.1) key = values pairs key := by
  unfold values
  rw [List.filter_filter]
  congr 1
  refine List.filter_congr fun pair _ => ?_
  by_cases same : pair.1 = key
  · simp [same, kept]
  · simp [same]

/-! ## The hash -/

@[simp] theorem grouped_nil : grouped ([] : List (Key × Value)) = [] := rfl

theorem map_fst_grouped (pairs : List (Key × Value)) :
    (grouped pairs).map Prod.fst = keys pairs := by
  unfold grouped
  rw [List.map_map]
  exact List.map_id _

theorem push_grouped (pairs : List (Key × Value)) (key : Key) (value : Value) :
    push (grouped pairs) key value = grouped (pairs ++ [(key, value)]) := by
  have found : key ∈ (grouped pairs).map Prod.fst ↔ key ∈ pairs.map Prod.fst := by
    rw [map_fst_grouped, mem_keys]
  unfold push
  by_cases old : key ∈ pairs.map Prod.fst
  · rw [if_pos (found.mpr old), grouped, grouped, keys_concat, if_pos old, List.map_map]
    refine List.map_congr_left fun other _ => ?_
    by_cases same : other = key
    · subst same
      simp [values_concat_self]
    · simp [same, values_concat_of_ne pairs same]
  · have none : values pairs key = [] := by
      rw [values, List.map_eq_nil_iff, List.filter_eq_nil_iff]
      intro pair member same
      exact old (List.mem_map.mpr ⟨pair, member, of_decide_eq_true same⟩)
    rw [if_neg (mt found.mp old), grouped, grouped, keys_concat, if_neg old, List.map_append,
      List.map_singleton, values_concat_self, none, List.nil_append, List.append_cancel_right_eq]
    refine List.map_congr_left fun other member => ?_
    have apart : other ≠ key := by
      rintro rfl
      exact old (mem_keys.mp member)
    rw [values_concat_of_ne pairs apart]

theorem filter_grouped (keep : Key → Bool) (pairs : List (Key × Value)) :
    (grouped pairs).filter (fun entry => keep entry.1) =
      grouped (pairs.filter fun pair => keep pair.1) := by
  unfold grouped
  rw [keys_filter, List.filter_map]
  refine List.map_congr_left fun key member => ?_
  have kept : keep key = true := (List.mem_filter.mp member).2
  rw [values_filter keep pairs kept]

/-- The pairs of a hash, key after key. -/
def pairs (hash : List (Key × List Value)) : List (Key × Value) :=
  hash.flatMap fun entry => entry.2.map fun value => (entry.1, value)

omit [DecidableEq Key] in
@[simp] theorem pairs_cons (entry : Key × List Value) (rest : List (Key × List Value)) :
    pairs (entry :: rest) = (entry.2.map fun value => (entry.1, value)) ++ pairs rest := rfl

theorem map_values (given : List (Key × Value)) (key : Key) :
    ((values given key).map fun value => (key, value)) =
      given.filter fun pair => pair.1 = key := by
  unfold values
  rw [List.map_map]
  refine (List.map_congr_left ?_).trans (List.map_id _)
  intro pair member
  have same : pair.1 = key := of_decide_eq_true (List.mem_filter.mp member).2
  rw [← same]
  rfl

theorem pairs_grouped (given : List (Key × Value)) :
    pairs (grouped given) =
      (keys given).flatMap fun key => given.filter fun pair => pair.1 = key := by
  unfold pairs grouped
  rw [List.flatMap_map]
  exact List.flatMap_congr fun key _ => map_values given key

/-- Of the pairs under different keys, those of one key are found under it only. -/
theorem filter_flatMap_filter (given : List (Key × Value)) (key : Key) {some : List Key}
    (nodup : some.Nodup) :
    (some.flatMap fun other => given.filter fun pair => pair.1 = other).filter
        (fun pair => pair.1 = key) =
      if key ∈ some then given.filter fun pair => pair.1 = key else [] := by
  induction some with
  | nil => rfl
  | cons first rest ih =>
      rw [List.nodup_cons] at nodup
      rw [List.flatMap_cons, List.filter_append, ih nodup.2, List.filter_filter]
      by_cases same : key = first
      · subst same
        rw [if_neg nodup.1, if_pos (List.mem_cons_self ..), List.append_nil]
        refine List.filter_congr fun pair _ => ?_
        exact Bool.and_self _
      · have none : given.filter (fun pair => decide (pair.1 = key) && decide (pair.1 = first)) =
            [] := by
          rw [List.filter_eq_nil_iff]
          intro pair _ both
          rw [Bool.and_eq_true, decide_eq_true_eq, decide_eq_true_eq] at both
          exact same (both.1.symm.trans both.2)
        simp [none, same]

/-- The hash keeps the pairs of each key in their order. -/
theorem filter_pairs_grouped (given : List (Key × Value)) (key : Key) :
    (pairs (grouped given)).filter (fun pair => pair.1 = key) =
      given.filter fun pair => pair.1 = key := by
  rw [pairs_grouped, filter_flatMap_filter given key (nodup_keys given)]
  split
  · rfl
  · next absent =>
      rw [eq_comm, List.filter_eq_nil_iff]
      intro pair member same
      exact absent (mem_keys.mpr (List.mem_map.mpr ⟨pair, member, of_decide_eq_true same⟩))

/-- The keys of the pairs are in order exactly if they have been inserted in order. -/
theorem pairwise_pairs_grouped {Before : Key → Key → Prop} (refl : ∀ key, Before key key)
    (given : List (Key × Value)) :
    (pairs (grouped given)).Pairwise (fun first second => Before first.1 second.1) ↔
      (keys given).Pairwise Before := by
  have own : ∀ {key : Key} {pair : Key × Value},
      pair ∈ given.filter (fun pair => pair.1 = key) → pair.1 = key :=
    fun member => of_decide_eq_true (List.mem_filter.mp member).2
  rw [pairs_grouped, List.pairwise_flatMap]
  constructor
  · rintro ⟨-, apart⟩
    refine apart.imp_of_mem ?_
    intro first second here there before
    obtain ⟨one, member, rfl⟩ := List.mem_map.mp (mem_keys.mp here)
    obtain ⟨two, other, rfl⟩ := List.mem_map.mp (mem_keys.mp there)
    exact before one (List.mem_filter.mpr ⟨member, decide_eq_true rfl⟩) two
      (List.mem_filter.mpr ⟨other, decide_eq_true rfl⟩)
  · intro ordered
    refine ⟨?_, ?_⟩
    · intro key _
      refine List.Pairwise.imp_of_mem (fun here there _ => ?_) (List.pairwise_of_forall
        fun _ _ => trivial)
      rw [own here, own there]
      exact refl key
    · refine ordered.imp ?_
      intro first second before one here two there
      rw [own here, own there]
      exact before

end Nise.Lib.OrderedHash
