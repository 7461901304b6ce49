import Dfs.Library.Layout

/-!
# Files of records

Records of one layout stand in a file one after the other.  They are read
until a record is not complete or a number is reached, so that of a file that
was torn off the complete records are left.
-/

namespace Dfs.Layout

variable {β : Type}

theorem append_halves (value : BitVec 64) :
    value.extractLsb' 32 32 ++ value.extractLsb' 0 32 = value := by
  apply BitVec.eq_of_getLsbD_eq
  intro index inside
  simp only [BitVec.getLsbD_append, BitVec.getLsbD_extractLsb']
  grind

/-- The two halves of a 64-bit integer, in the order of the host. -/
def long (order : ByteOrder) : Layout (BitVec 64) :=
  ((word order).followedBy (word order)).record
    (fun value =>
      match order with
      | .littleEndian => (value.extractLsb' 0 32, value.extractLsb' 32 32)
      | .bigEndian => (value.extractLsb' 32 32, value.extractLsb' 0 32))
    (fun halves =>
      match order with
      | .littleEndian => halves.2 ++ halves.1
      | .bigEndian => halves.1 ++ halves.2)
    (by
      intro value
      cases order with
      | littleEndian => exact append_halves value
      | bigEndian => exact append_halves value)

def writeRecords (layout : Layout β) (records : List β) : List Byte :=
  records.flatMap layout.store

/-- Reading stops at the first record that is not complete. -/
def readRecords (layout : Layout β) : Nat → List Byte → List β
  | 0, _ => []
  | limit + 1, bytes =>
      if bytes.length < layout.size then []
      else
        layout.load (bytes.take layout.size) ::
          readRecords layout limit (bytes.drop layout.size)

variable {layout : Layout β}

theorem writeRecords_cons (record : β) (records : List β) :
    layout.writeRecords (record :: records) =
      layout.store record ++ layout.writeRecords records :=
  rfl

theorem length_writeRecords (records : List β) :
    (layout.writeRecords records).length = records.length * layout.size := by
  induction records with
  | nil => simp [writeRecords]
  | cons record records ih =>
      rw [writeRecords_cons, List.length_append, layout.length_store, ih,
        List.length_cons, Nat.add_mul, Nat.one_mul, Nat.add_comm]

theorem readRecords_short {bytes : List Byte}
    (short : bytes.length < layout.size) (limit : Nat) :
    layout.readRecords limit bytes = [] := by
  cases limit with
  | zero => rfl
  | succ limit => rw [readRecords, if_pos short]

/-- A file that ends after some bytes has the records that end before. -/
theorem readRecords_take (inhabited : 0 < layout.size) (records : List β)
    (limit count : Nat) :
    layout.readRecords limit ((layout.writeRecords records).take count) =
      records.take (min limit (count / layout.size)) := by
  induction records generalizing limit count with
  | nil =>
      rw [List.take_nil]
      exact readRecords_short (by simpa [writeRecords] using inhabited) limit
  | cons record records ih =>
      by_cases whole : layout.size ≤ count
      · cases limit with
        | zero => simp [readRecords]
        | succ limit =>
            have stored := layout.length_store record
            have split : (layout.writeRecords (record :: records)).take count =
                layout.store record ++ (layout.writeRecords records).take
                  (count - layout.size) := by
              rw [writeRecords_cons, List.take_append,
                List.take_of_length_le (by omega), stored]
            have steps : count / layout.size =
                (count - layout.size) / layout.size + 1 := by
              rw [← Nat.add_div_right _ inhabited, Nat.sub_add_cancel whole]
            have complete : ¬ (layout.store record ++
                (layout.writeRecords records).take
                  (count - layout.size)).length < layout.size := by
              rw [List.length_append, stored]
              omega
            rw [split, readRecords, if_neg complete, List.take_left' stored,
              List.drop_left' stored, layout.load_store, ih, steps,
              Nat.add_min_add_right, List.take_succ_cons]
      · have torn : ((layout.writeRecords (record :: records)).take
            count).length < layout.size := by
          rw [List.length_take]
          omega
        rw [readRecords_short torn, Nat.div_eq_of_lt (by omega),
          Nat.min_zero, List.take_zero]

/-- A whole file is read back. -/
theorem readRecords_writeRecords (inhabited : 0 < layout.size)
    (records : List β) (limit : Nat) :
    layout.readRecords limit (layout.writeRecords records) =
      records.take limit := by
  have whole := readRecords_take inhabited records limit
    (layout.writeRecords records).length
  rw [List.take_length, length_writeRecords,
    Nat.mul_div_cancel _ inhabited] at whole
  rw [whole]
  by_cases few : limit ≤ records.length
  · rw [Nat.min_eq_left few]
  · rw [Nat.min_eq_right (by omega), List.take_length,
      List.take_of_length_le (by omega)]

end Dfs.Layout
