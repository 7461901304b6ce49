import Dfs.Library.CInput
import Dfs.NetworkUtils

/-!
# Fields of a message

The strings and numbers that programs put into a cleared `Message` and take out
of a received one.  A `Text` stands for bytes as long as its characters are
below 256.
-/

namespace Dfs

def byteOf (char : Char) : Byte := BitVec.ofNat 8 char.toNat

def charOf (byte : Byte) : Char := Char.ofNat byte.toNat

def IsBytes (text : Text) : Prop := ∀ char ∈ text, char.toNat < 256

theorem charOf_byteOf {char : Char} (small : char.toNat < 256) :
    charOf (byteOf char) = char := by
  have same : (byteOf char).toNat = char.toNat := by
    rw [byteOf, BitVec.toNat_ofNat]
    exact Nat.mod_eq_of_lt small
  rw [charOf, same, Char.ofNat_toNat]

theorem map_charOf_byteOf {text : Text} (bytes : IsBytes text) :
    text.map (charOf ∘ byteOf) = text := by
  have same : ∀ char ∈ text, (charOf ∘ byteOf) char = id char :=
    fun char member => charOf_byteOf (bytes char member)
  rw [List.map_congr_left same, List.map_id]

theorem charOf_lt (byte : Byte) : (charOf byte).toNat < 256 := by
  have small := byte.isLt
  have valid : byte.toNat.isValidChar := by
    left
    omega
  rw [charOf, Char.ofNat, dif_pos valid]
  exact small

theorem IsBytes.subset {text part : Text} (bytes : IsBytes text)
    (within : part ⊆ text) : IsBytes part :=
  fun char member => bytes char (within member)

theorem IsBytes.copy {text : Text} (bytes : IsBytes text) (capacity : Nat) :
    IsBytes (CString.copy capacity text).chars :=
  bytes.subset fun _ member =>
    (List.takeWhile_sublist _).subset (List.mem_of_mem_take member)

section

variable {capacity : Nat}

/-- `strncpy` of at most `capacity` bytes into an array of zeros. -/
def fieldOf (string : CString capacity) : Vector Byte (capacity + 1) :=
  ⟨(string.chars.map byteOf ++
      List.replicate (capacity + 1 - string.chars.length) 0).toArray, by
    have fits := string.fits
    simp
    omega⟩

/-- The string that an array holds. -/
def stringOf (field : Vector Byte (capacity + 1)) : CString capacity :=
  CString.copy capacity (field.toList.map charOf)

theorem stringOf_fieldOf {string : CString capacity}
    (bytes : IsBytes string.chars) : stringOf (fieldOf string) = string := by
  have zeros : List.replicate (capacity + 1 - string.chars.length) (0 : Byte) =
      0 :: List.replicate (capacity - string.chars.length) 0 := by
    have fits := string.fits
    rw [← List.replicate_succ]
    congr 1
    omega
  have text : (fieldOf string).toList.map charOf = string.chars ++
      CText.nul ::
          List.replicate (capacity - string.chars.length) CText.nul := by
    rw [fieldOf, Vector.toList_mk, zeros, List.map_append, List.map_map,
      map_charOf_byteOf bytes, List.map_cons, List.map_replicate]
    rfl
  ext1
  rw [stringOf, text]
  change (CText.terminated _).take capacity = string.chars
  rw [CText.terminated_append_nul string.nulFree]
  exact List.take_of_length_le string.fits

theorem isBytes_stringOf (field : Vector Byte (capacity + 1)) :
    IsBytes (stringOf field).chars := by
  intro char member
  have inField : char ∈ field.toList.map charOf :=
    (List.takeWhile_subset _) (List.mem_of_mem_take member)
  obtain ⟨byte, -, rfl⟩ := List.mem_map.mp inField
  exact charOf_lt byte

/-- A string that was read from a field is copied into another. -/
@[simp]
theorem stringOf_fieldOf_stringOf (field : Vector Byte (capacity + 1)) :
    stringOf (fieldOf (stringOf field)) = stringOf field :=
  stringOf_fieldOf (isBytes_stringOf field)

end

def wordOfInt (value : Int) : Word := BitVec.ofInt 32 value

theorem toInt_wordOfInt {value : Int} (fits : CInput.IsInt value) :
    (wordOfInt value).toInt = value := by
  rw [wordOfInt, BitVec.toInt_ofInt]
  exact Int.bmod_eq_of_le fits.1 fits.2

/-- `memset(&msg, 0, sizeof(Message))`. -/
def clearedMessage : Message where
  msgType := 0
  operation := 0
  errorCode := 0
  username := Vector.replicate _ 0
  filename := Vector.replicate _ 0
  checkpointTag := Vector.replicate _ 0
  targetPath := Vector.replicate _ 0
  sentenceIndex := 0
  wordIndex := 0
  ip := Vector.replicate _ 0
  port1 := 0
  port2 := 0
  ssId := 0
  data := Vector.replicate _ 0

/-- A cleared message with the type, the operation and the user that every
request of a client has. -/
def requestMessage (operation : Int) (username : Username) : Message :=
  { clearedMessage with
    msgType := wordOfInt msgRequest
    operation := wordOfInt operation
    username := fieldOf username }

end Dfs
