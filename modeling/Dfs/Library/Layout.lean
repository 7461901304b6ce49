import Mathlib.Data.List.Basic
import Mathlib.Tactic.Common

/-!
# Values in memory

A layout fixes the bytes that hold the values of a type.  A word is stored in
the byte order of its host; on the network the most significant byte comes
first.
-/

namespace Dfs

abbrev Byte := BitVec 8

/-- The bits of a 32-bit integer. -/
abbrev Word := BitVec 32

/-- The bytes of a word, the most significant one first. -/
def networkBytes (word : Word) : List Byte :=
  [word.extractLsb' 24 8, word.extractLsb' 16 8, word.extractLsb' 8 8,
    word.extractLsb' 0 8]

def wordOf : List Byte → Word
  | [first, second, third, fourth] => first ++ second ++ third ++ fourth
  | _ => 0

/-- The same bytes in the opposite order. -/
def swapBytes (word : Word) : Word := wordOf (networkBytes word).reverse

theorem wordOf_networkBytes (word : Word) :
    wordOf (networkBytes word) = word := by
  apply BitVec.eq_of_getLsbD_eq
  intro index inside
  simp only [wordOf, networkBytes, BitVec.getLsbD_append,
    BitVec.getLsbD_extractLsb']
  grind

theorem networkBytes_wordOf (first second third fourth : Byte) :
    networkBytes (wordOf [first, second, third, fourth]) =
      [first, second, third, fourth] := by
  -- each byte is cut out of the appended ones from the right
  have atFirst : (first ++ second ++ third ++ fourth).extractLsb' 24 8 =
      first := by
    rw [BitVec.extractLsb'_append_eq_of_le (by decide),
      BitVec.extractLsb'_append_eq_of_le (by decide),
      BitVec.extractLsb'_append_eq_of_le (by decide)]
    exact BitVec.extractLsb'_eq_self
  have atSecond : (first ++ second ++ third ++ fourth).extractLsb' 16 8 =
      second := by
    rw [BitVec.extractLsb'_append_eq_of_le (by decide),
      BitVec.extractLsb'_append_eq_of_le (by decide),
      BitVec.extractLsb'_append_eq_of_add_le (by decide)]
    exact BitVec.extractLsb'_eq_self
  have atThird : (first ++ second ++ third ++ fourth).extractLsb' 8 8 =
      third := by
    rw [BitVec.extractLsb'_append_eq_of_le (by decide),
      BitVec.extractLsb'_append_eq_of_add_le (by decide)]
    exact BitVec.extractLsb'_eq_self
  have atFourth : (first ++ second ++ third ++ fourth).extractLsb' 0 8 =
      fourth := by
    rw [BitVec.extractLsb'_append_eq_of_add_le (by decide)]
    exact BitVec.extractLsb'_eq_self
  rw [wordOf, networkBytes, atFirst, atSecond, atThird, atFourth]

theorem networkBytes_swapBytes (word : Word) :
    networkBytes (swapBytes word) = (networkBytes word).reverse :=
  networkBytes_wordOf _ _ _ _

theorem swapBytes_swapBytes (word : Word) :
    swapBytes (swapBytes word) = word := by
  rw [swapBytes, networkBytes_swapBytes, List.reverse_reverse,
    wordOf_networkBytes]

inductive ByteOrder where
  | littleEndian
  | bigEndian
  deriving DecidableEq, Repr

namespace ByteOrder

/-- From the network order to that of the host, and back. -/
def arrange : ByteOrder → List Byte → List Byte
  | .littleEndian, bytes => bytes.reverse
  | .bigEndian, bytes => bytes

def htonl : ByteOrder → Word → Word
  | .littleEndian, word => swapBytes word
  | .bigEndian, word => word

def ntohl (order : ByteOrder) (word : Word) : Word := order.htonl word

@[simp] theorem arrange_arrange (order : ByteOrder) (bytes : List Byte) :
    order.arrange (order.arrange bytes) = bytes := by
  cases order with
  | littleEndian => exact List.reverse_reverse bytes
  | bigEndian => rfl

@[simp] theorem length_arrange (order : ByteOrder) (bytes : List Byte) :
    (order.arrange bytes).length = bytes.length := by
  cases order with
  | littleEndian => exact List.length_reverse
  | bigEndian => rfl

@[simp] theorem ntohl_htonl (order : ByteOrder) (word : Word) :
    order.ntohl (order.htonl word) = word := by
  cases order with
  | littleEndian => exact swapBytes_swapBytes word
  | bigEndian => rfl

end ByteOrder

/-- The bytes in which the values of a type are stored. -/
structure Layout (β : Type) where
  size : Nat
  store : β → List Byte
  load : List Byte → β
  length_store : ∀ value, (store value).length = size
  load_store : ∀ value, load (store value) = value

namespace Layout

variable {β γ : Type}

def word (order : ByteOrder) : Layout Word where
  size := 4
  store := fun value => order.arrange (networkBytes value)
  load := fun bytes => wordOf (order.arrange bytes)
  length_store := fun value => order.length_arrange (networkBytes value)
  load_store := by
    intro value
    rw [order.arrange_arrange, wordOf_networkBytes]

/-- A converted word lies in the memory of every host as on the network. -/
theorem store_word_htonl (order : ByteOrder) (value : Word) :
    (word order).store (order.htonl value) =
      (word .bigEndian).store value := by
  cases order with
  | littleEndian =>
      change (networkBytes (swapBytes value)).reverse = networkBytes value
      rw [networkBytes_swapBytes, List.reverse_reverse]
  | bigEndian => rfl

/-- An array of characters. -/
def chars (capacity : Nat) : Layout (Vector Byte capacity) where
  size := capacity
  store := Vector.toList
  load := fun bytes => Vector.ofFn fun index => bytes.getD index 0
  length_store := fun _ => Vector.length_toList
  load_store := by
    intro value
    apply Vector.ext
    intro index inside
    simp

/-- One value after another, without padding. -/
def followedBy (first : Layout β) (second : Layout γ) : Layout (β × γ) where
  size := first.size + second.size
  store := fun value => first.store value.1 ++ second.store value.2
  load := fun bytes =>
    (first.load (bytes.take first.size), second.load (bytes.drop first.size))
  length_store := by
    intro value
    rw [List.length_append, first.length_store, second.length_store]
  load_store := by
    intro value
    rw [List.take_left' (first.length_store _),
      List.drop_left' (first.length_store _), first.load_store,
      second.load_store]

/-- A record stored as its fields. -/
def record (layout : Layout γ) (fields : β → γ) (build : γ → β)
    (complete : ∀ value, build (fields value) = value) : Layout β where
  size := layout.size
  store := fun value => layout.store (fields value)
  load := fun bytes => build (layout.load bytes)
  length_store := fun value => layout.length_store (fields value)
  load_store := by
    intro value
    rw [layout.load_store, complete]

end Layout

end Dfs
