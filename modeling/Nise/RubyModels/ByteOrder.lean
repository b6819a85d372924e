import Nise.Lib.Blocks
import Nise.RubyModels.Link16Message

/-!
# The byte order of messages

`reverse` takes the blocks of a string in the opposite order, and `swap_bytes` exchanges the bytes
of every word.  Both are said here of a string that is given by its blocks.
-/

namespace Nise.RubyModels

open Nise.Lib

/-- The indices `(0..x-1).step(count)` of a string with `x` characters. -/
def steps (count x : Nat) : List Nat := (List.range ((x + count - 1) / count)).map (· * count)

/-- `reverse` of a string: each block is inserted in front of those before it. -/
def reverse {Character : Type} (count : Nat) (text : List Character) : List Character :=
  if count = 1 then text.reverse
  else (steps count text.length).foldl (fun s inx => (text.drop inx).take count ++ s) []

/-- What `pack_message` and `unpack_message` do to the bytes of a message. -/
def byteOrder (text : List UInt8) : Option (List UInt8) := swapBytes (reverse 2 text)

/-! ## Blocks in the opposite order -/

section Reverse

variable {Character : Type} {count : Nat}

theorem foldl_insert {Index : Type} (piece : Index → List Character) (indices : List Index)
    (s : List Character) :
    indices.foldl (fun s inx => piece inx ++ s) s =
      indices.foldl (fun s inx => piece inx ++ s) [] ++ s := by
  induction indices generalizing s with
  | nil => rfl
  | cons inx rest ih =>
      rw [List.foldl_cons, ih, List.foldl_cons, ih (piece inx ++ []), List.append_nil,
        List.append_assoc]

theorem steps_add (positive : 1 ≤ count) (x : Nat) :
    steps count (count + x) = 0 :: (steps count x).map (count + ·) := by
  have number : (count + x + count - 1) / count = (x + count - 1) / count + 1 := by
    rw [show count + x + count - 1 = x + count - 1 + count by omega,
      Nat.add_div_right _ positive]
  unfold steps
  rw [number, List.range_succ_eq_map, List.map_cons, List.map_map, List.map_map, Nat.zero_mul]
  congr 1
  refine List.map_congr_left fun index _ => ?_
  exact (Nat.succ_mul index count).trans (Nat.add_comm _ _)

/-- The first block comes last. -/
theorem reverse_append (positive : 1 ≤ count) {block : List Character}
    (length : block.length = count) (rest : List Character) :
    reverse count (block ++ rest) = reverse count rest ++ block := by
  unfold reverse
  by_cases one : count = 1
  · obtain ⟨character, rfl⟩ := List.length_eq_one_iff.mp (length.trans one)
    rw [if_pos one, if_pos one, List.reverse_append, List.reverse_singleton]
  · have first : ((block ++ rest).drop 0).take count = block := List.take_left' length
    have later : ∀ inx, ((block ++ rest).drop (count + inx)).take count =
        (rest.drop inx).take count := by
      intro inx
      rw [← List.drop_drop, List.drop_left' length]
    rw [if_neg one, if_neg one, List.length_append, length, steps_add positive, List.foldl_cons,
      first, List.append_nil, List.foldl_map, foldl_insert]
    simp only [later]

theorem reverse_nil (count : Nat) : reverse count ([] : List Character) = [] := by
  unfold reverse
  split
  · rfl
  · rw [List.length_nil]
    simp only [List.drop_nil, List.take_nil, List.nil_append]
    generalize steps count 0 = indices
    induction indices with
    | nil => rfl
    | cons inx rest ih => exact ih

theorem reverse_flatten (positive : 1 ≤ count) {blocks : List (List Character)}
    (same : Blocks.Of count blocks) :
    reverse count blocks.flatten = blocks.reverse.flatten := by
  induction blocks with
  | nil => exact reverse_nil count
  | cons block rest ih =>
      have length := same block (List.mem_cons_self ..)
      have later := ih fun other member => same other (List.mem_cons_of_mem _ member)
      rw [List.flatten_cons, reverse_append positive length, later, List.reverse_cons,
        List.flatten_append, List.flatten_singleton]

end Reverse

/-- The words of a message are taken in the opposite order by a recursion over pairs. -/
theorem reverse_two (text : List UInt8) : reverse 2 text = reverse2 text := by
  induction text using reverse2.induct with
  | case1 => exact reverse_nil 2
  | case2 last => simp [reverse, steps, reverse2]
  | case3 first second rest ih =>
      rw [reverse2, ← ih]
      have length : [first, second].length = 2 := rfl
      exact reverse_append (by decide) length rest

/-! ## Words with their bytes exchanged -/

theorem swapBytes_flatten {words : List (List UInt8)} (same : Blocks.Of 2 words) :
    swapBytes words.flatten = some (words.map List.reverse).flatten := by
  induction words with
  | nil => rfl
  | cons word rest ih =>
      have length := same word (List.mem_cons_self ..)
      have later := ih fun other member => same other (List.mem_cons_of_mem _ member)
      obtain ⟨first, second, rfl⟩ := List.length_eq_two.mp length
      rw [List.flatten_cons, List.cons_append, List.cons_append, List.nil_append, swapBytes,
        later]
      rfl

/-- Words in the opposite order and with their bytes exchanged are the bytes in the opposite
order. -/
theorem byteOrder_eq {text : List UInt8} (even : 2 ∣ text.length) :
    byteOrder text = some text.reverse := by
  unfold byteOrder
  rw [reverse_two, swapBytes_reverse2 (Nat.mod_eq_zero_of_dvd even)]

theorem byteOrder_byteOrder {text : List UInt8} (even : 2 ∣ text.length) :
    (byteOrder text).bind byteOrder = some text := by
  have reversed : 2 ∣ text.reverse.length := by rwa [List.length_reverse]
  rw [byteOrder_eq even, Option.bind_some, byteOrder_eq reversed, List.reverse_reverse]

/-- A string whose bytes can be exchanged has whole words. -/
theorem even_of_swapBytes {text swapped : List UInt8} (swaps : swapBytes text = some swapped) :
    2 ∣ text.length := by
  induction text using swapBytes.induct generalizing swapped with
  | case1 => exact dvd_zero 2
  | case2 last => cases swaps
  | case3 first second rest ih =>
      obtain ⟨later, found, -⟩ := Option.map_eq_some_iff.mp swaps
      have shorter := ih found
      rw [List.length_cons, List.length_cons]
      omega

namespace Link16Message

/-- What is sent is the packed bits in the other byte order. -/
theorem byteOrder_of_packMessage {message packed : Link16Message}
    (packs : message.packMessage = some packed) : byteOrder packed.raw = some packed.out := by
  obtain ⟨outBits, -, later⟩ := Option.bind_eq_some_iff.mp packs
  obtain ⟨out, swaps, made⟩ := Option.bind_eq_some_iff.mp later
  cases made
  rwa [byteOrder, reverse_two]

theorem even_raw {message packed : Link16Message} (packs : message.packMessage = some packed) :
    2 ∣ packed.raw.length := by
  have sent := byteOrder_of_packMessage packs
  unfold byteOrder at sent
  rw [reverse_two] at sent
  have even := even_of_swapBytes sent
  rwa [length_reverse2] at even

/-- What has been received is cut into fields in the other byte order. -/
theorem unpackMessage_eq (message : Link16Message) :
    message.unpackMessage = do
      let swapped ← byteOrder message.raw
      let state ← message.msgItems.foldlM (unpackField (toBinary swapped)) (message.members, 0)
      return { message with members := state.1 } := by
  unfold unpackMessage byteOrder
  rw [reverse_two]

end Link16Message

/-- Blocks of any length that divides the string are in their order again after two reversals, and
so are the words and the bytes of each word; words in the opposite order with their bytes exchanged
are the bytes in the opposite order, which is how a packed message gets its bits back. -/
theorem byte_order_involutive (text : List UInt8) :
    (∀ count, 1 ≤ count → count ∣ text.length → reverse count (reverse count text) = text) ∧
    (2 ∣ text.length →
      ∃ swapped, swapBytes text = some swapped ∧ swapBytes swapped = some text ∧
        swapBytes (reverse 2 text) = some (reverse 2 swapped) ∧
        swapBytes (reverse 2 text) = some (reverse 1 text) ∧
        (byteOrder text).bind byteOrder = some text) ∧
    ∀ message packed : Link16Message, message.packMessage = some packed → packed.raw = text →
      byteOrder text = some packed.out ∧ byteOrder packed.out = some text := by
  refine ⟨?_, ?_, ?_⟩
  · intro count positive divides
    obtain ⟨blocks, same, rfl⟩ := Blocks.exists_of_dvd divides
    rw [reverse_flatten positive same, reverse_flatten positive same.reverse, List.reverse_reverse]
  · intro even
    have plain := byteOrder_eq even
    have twice := byteOrder_byteOrder even
    obtain ⟨words, same, rfl⟩ := Blocks.exists_of_dvd even
    refine ⟨(words.map List.reverse).flatten, swapBytes_flatten same, ?_, ?_, plain, twice⟩
    · rw [swapBytes_flatten same.map_reverse, Blocks.map_reverse_map_reverse]
    · rw [reverse_flatten (by decide) same, swapBytes_flatten same.reverse,
        reverse_flatten (by decide) same.map_reverse, List.map_reverse]
  · rintro message packed packs rfl
    have sent := Link16Message.byteOrder_of_packMessage packs
    have twice := byteOrder_byteOrder (Link16Message.even_raw packs)
    rw [sent, Option.bind_some] at twice
    exact ⟨sent, twice⟩

theorem byte_order_involutive_words :
    reverse 3 (reverse 3 [1, 2, 3, 4, 5, 6]) = [(1 : UInt8), 2, 3, 4, 5, 6] ∧
      (byteOrder [1, 2, 3, 4, 5, 6]).bind byteOrder = some [1, 2, 3, 4, 5, 6] := by
  obtain ⟨blocks, words, -⟩ := byte_order_involutive [1, 2, 3, 4, 5, 6]
  obtain ⟨_, -, -, -, -, twice⟩ := words (by decide)
  exact ⟨blocks 3 (by decide) (by decide), twice⟩

end Nise.RubyModels
