import ValkeyLuajit.Bundled.MsgPackRefinement

/-!
# Packing and unpacking

What the encoder says about a value is what the reader reads, whatever follows it, as long as
the format has the sizes and nil is no key.
-/

namespace ValkeyLuajit

open Lua

/-- The tree can be read back: sizes and numbers are those of the format, and its keys can be
keys. There are so many levels of lists and records at most. -/
def MpTree.Sound : (levels : Nat) → MpTree → Prop
  | _, .nil => True
  | _, .boolean _ => True
  | _, .number n => Interchange.double.Holds n.datum
  | _, .string text => text.length < 2 ^ 32
  | 0, .list _ => False
  | 0, .record _ => False
  | levels + 1, .list elements =>
      elements.length < 2 ^ 32 ∧ ∀ element ∈ elements, Sound levels element
  | levels + 1, .record entries => entries.length < 2 ^ 32 ∧
      ∀ entry ∈ entries, Sound levels entry.1 ∧ entry.1.keyFault = none ∧ Sound levels entry.2

section Numbers

variable {host : MpHost} {key value : Reader MpFault MpTree} {room : Nat}

/-- A number is read back from its bytes, cut to their width. -/
theorem readNumber_bigEndian (width n : Nat) (rest : Bytes) :
    readNumber width (bigEndian width n ++ rest) = .done (n % 256 ^ width) rest := by
  have taken := Reader.take_append (ε := MpFault) (bigEndian width n) rest
  rw [length_bigEndian] at taken
  rw [readNumber, Reader.bind_apply, taken, Reader.andThen_done, ofBigEndian_bigEndian]
  rfl

/-- A first byte decides what is read. -/
theorem readWith_cons {tag : UInt8} (head : MpHead) (some : 0 < room) (known : mpHead tag = head)
    (rest : Bytes) : readWith key value room (tag :: rest) = readHead key value room head rest := by
  rw [readWith, Reader.bind_apply, Reader.byte_cons, Reader.andThen_done, if_neg (by omega), known]

/-- A single byte. -/
theorem bigEndian_one (n : Nat) : bigEndian 1 n = [UInt8.ofNat n] := by simp [bigEndian]

/-- The bits of an integer, cut off and read with a sign, are the integer. -/
theorem bmod_int64Bits {i : Int} {width : Nat} (divides : (256 : Int) ^ width ∣ 2 ^ 64)
    (lower : -((256 : Int) ^ width / 2) ≤ i) (upper : i < ((256 : Int) ^ width + 1) / 2) :
    ((int64Bits i % 256 ^ width : Nat) : Int).bmod (256 ^ width) = i := by
  have bits : ((int64Bits i : Nat) : Int) = i % 2 ^ 64 := Int.toNat_of_nonneg (Int.emod_nonneg _ (by decide))
  have cut : ((int64Bits i % 256 ^ width : Nat) : Int) = i % ((256 ^ width : Nat) : Int) := by
    rw [Int.natCast_emod, bits]
    push_cast
    exact Int.emod_emod_of_dvd _ divides
  rw [cut, Int.emod_bmod]
  apply Int.bmod_eq_of_le
  · push_cast
    exact lower
  · push_cast
    exact upper

/-- A number that is not negative is read as it is. -/
theorem bmod_of_nonneg {i : Int} {width : Nat} (positive : 0 ≤ i) (below : i < 256 ^ width)
    (small : i < 2 ^ 63) : ((int64Bits i % 256 ^ width : Nat) : Int).bmod (2 ^ 64) = i := by
  have bits : int64Bits i = i.toNat := by
    rw [int64Bits, Int.emod_eq_of_lt positive (by omega)]
  have whole : (i.toNat : Int) = i := Int.toNat_of_nonneg positive
  have under : i.toNat < 256 ^ width := by
    zify
    rwa [whole]
  rw [bits, Nat.mod_eq_of_lt under, whole]
  apply Int.bmod_eq_of_le
  · omega
  · push_cast
    omega

/-- A fixnum. -/
theorem mpHead_small : ∀ n < 128, mpHead (UInt8.ofNat n) = .integer n := by decide

/-- A negative fixnum. -/
theorem mpHead_negative : ∀ n < 32, mpHead (UInt8.ofNat (224 + n)) = .integer ((n : Int) - 32) := by
  decide

/-- An integer is read back from each of its encodings. -/
theorem readWith_int {i : Int} (some : 0 < room) (holds : CInteger.longLong.Holds i) (rest : Bytes) :
    readWith key value room (mpIntBytes i ++ rest) = .done (.number (toLuaNumber i)) rest := by
  obtain ⟨least, greatest⟩ := holds
  simp only [CInteger.bits] at least greatest
  have unsigned (tag : UInt8) (width : Nat) (known : mpHead tag = .unsigned width) (positive : 0 ≤ i)
      (below : i < 256 ^ width) : readWith key value room
        ((tag :: bigEndian width (int64Bits i)) ++ rest) = .done (.number (toLuaNumber i)) rest := by
    rw [List.cons_append, readWith_cons _ some known, readHead, Reader.bind_apply,
      readNumber_bigEndian, Reader.andThen_done, bmod_of_nonneg positive below greatest]
    rfl
  have signed (tag : UInt8) (width : Nat) (known : mpHead tag = .signed width)
      (divides : (256 : Int) ^ width ∣ 2 ^ 64) (lower : -((256 : Int) ^ width / 2) ≤ i)
      (upper : i < ((256 : Int) ^ width + 1) / 2) : readWith key value room
        ((tag :: bigEndian width (int64Bits i)) ++ rest) = .done (.number (toLuaNumber i)) rest := by
    rw [List.cons_append, readWith_cons _ some known, readHead, Reader.bind_apply,
      readNumber_bigEndian, Reader.andThen_done, bmod_int64Bits divides lower upper]
    rfl
  rw [mpIntBytes]
  by_cases positive : 0 ≤ i
  · rw [if_pos positive]
    by_cases fix : i ≤ 127
    · rw [if_pos fix]
      obtain ⟨n, rfl⟩ := Int.eq_ofNat_of_zero_le positive
      have bits : int64Bits n = n := by
        rw [int64Bits, Int.emod_eq_of_lt positive (by omega), Int.toNat_natCast]
      rw [bits, bigEndian_one, List.singleton_append,
        readWith_cons _ some (mpHead_small n (by omega))]
      rfl
    rw [if_neg fix]
    by_cases one : i ≤ 0xff
    · rw [if_pos one]
      exact unsigned 0xcc 1 rfl positive (by omega)
    rw [if_neg one]
    by_cases two : i ≤ 0xffff
    · rw [if_pos two]
      exact unsigned 0xcd 2 rfl positive (by omega)
    rw [if_neg two]
    by_cases four : i ≤ 0xffffffff
    · rw [if_pos four]
      exact unsigned 0xce 4 rfl positive (by omega)
    · rw [if_neg four]
      exact unsigned 0xcf 8 rfl positive (by omega)
  · rw [if_neg positive]
    by_cases fix : -32 ≤ i
    · rw [if_pos fix]
      obtain ⟨n, same⟩ := Int.eq_ofNat_of_zero_le (show 0 ≤ i + 32 by omega)
      obtain rfl : i = (n : Int) - 32 := by omega
      have bits : UInt8.ofNat (int64Bits ((n : Int) - 32)) = UInt8.ofNat (224 + n) := by
        apply UInt8.toNat_inj.mp
        rw [UInt8.toNat_ofNat', UInt8.toNat_ofNat', int64Bits]
        omega
      rw [bigEndian_one, bits, List.singleton_append,
        readWith_cons _ some (mpHead_negative n (by omega))]
      rfl
    rw [if_neg fix]
    by_cases one : -128 ≤ i
    · rw [if_pos one]
      exact signed 0xd0 1 rfl (by decide) (by omega) (by omega)
    rw [if_neg one]
    by_cases two : -32768 ≤ i
    · rw [if_pos two]
      exact signed 0xd1 2 rfl (by decide) (by omega) (by omega)
    rw [if_neg two]
    by_cases four : -2147483648 ≤ i
    · rw [if_pos four]
      exact signed 0xd2 4 rfl (by decide) (by omega) (by omega)
    · rw [if_neg four]
      exact signed 0xd3 8 rfl (by decide) (by omega) (by omega)

/-- Numbers are equal to C only if they are the same. -/
theorem eq_of_equal {left right : Datum} (equal : left.equal right = true) : left = right := by
  cases left with
  | nan => cases equal
  | _ => exact of_decide_eq_true equal

/-- A double is read back, as a `float` where that has it. -/
theorem readWith_double {nan : NanBits} {n : Number} (some : 0 < room)
    (holds : Interchange.double.Holds n.datum) (rest : Bytes) :
    readWith key value room (mpDoubleBytes nan n ++ rest) = .done (.number n) rest := by
  rw [mpDoubleBytes]
  split
  · rename_i equal
    have small : Interchange.single.bits nan.float n.datum < 256 ^ 4 := Interchange.bits_lt nan.float_lt
    rw [List.cons_append, readWith_cons .float some rfl, readHead, Reader.bind_apply,
      readNumber_bigEndian, Reader.andThen_done, Nat.mod_eq_of_lt small, ← eq_of_equal equal,
      number_datum]
    rfl
  · have small : Interchange.double.bits nan.double n.datum < 256 ^ 8 :=
      Interchange.bits_lt nan.double_lt
    rw [List.cons_append, readWith_cons .double some rfl, readHead, Reader.bind_apply,
      readNumber_bigEndian, Reader.andThen_done, Nat.mod_eq_of_lt small,
      Interchange.datum_bits holds nan.double_nan, number_datum]
    rfl

/-- A number is read back from the encoding that was chosen for it. -/
theorem readWith_number {n : Number} (some : 0 < room)
    (holds : Interchange.double.Holds n.datum) (rest : Bytes) :
    readWith key value room (mpNumberBytes host n ++ rest) = .done (.number n) rest := by
  rw [mpNumberBytes]
  split
  · rename_i equivalent
    have same : toLuaNumber (host.convert ⟨n, .longLong⟩) = n := by
      cases n with
      | infinite negative => cases equivalent
      | _ =>
          have equal := eq_of_equal equivalent
          have numbers := congrArg Datum.number equal
          rwa [number_datum, number_datum] at numbers
    rw [readWith_int some (host.holds _), same]
  · exact readWith_double some holds rest

end Numbers

section Texts

variable {host : MpHost} {key value : Reader MpFault MpTree} {room : Nat}

/-- A short string has its length in the first byte. -/
theorem mpHead_fixRaw : ∀ l < 32, mpHead (UInt8.ofNat (0xa0 ||| l % 256)) = .fixRaw l := by decide

/-- A short list has its length there too. -/
theorem mpHead_fixArray : ∀ n < 16, mpHead (0x90 ||| UInt8.ofNat (n % 16)) = .fixArray n := by
  decide

/-- So has a short record. -/
theorem mpHead_fixMap : ∀ n < 16, mpHead (0x80 ||| UInt8.ofNat (n % 16)) = .fixMap n := by decide

/-- A string is read back. -/
theorem readWith_string {text : Bytes} (some : 0 < room) (short : text.length < 2 ^ 32)
    (rest : Bytes) : readWith key value room (mpRawHeader text.length ++ text ++ rest) =
      .done (.string text) rest := by
  have behind (width : Nat) (fits : text.length < 256 ^ width) :
      (Reader.andThen (readNumber width (bigEndian width text.length ++ (text ++ rest)))
        fun l => do
          let text ← Reader.take l
          pure (MpTree.string text)) = .done (.string text) rest := by
    rw [readNumber_bigEndian, Reader.andThen_done, Nat.mod_eq_of_lt fits, Reader.bind_apply,
      Reader.take_append]
    rfl
  rw [mpRawHeader, List.append_assoc]
  by_cases fix : text.length < 32
  · rw [if_pos fix, bigEndian_one, List.singleton_append,
      readWith_cons _ some (mpHead_fixRaw _ fix), readHead, Reader.bind_apply, Reader.take_append]
    rfl
  rw [if_neg fix]
  by_cases one : text.length ≤ 0xff
  · rw [if_pos one, List.cons_append, readWith_cons (.raw 1) some rfl]
    exact behind 1 (by omega)
  rw [if_neg one]
  by_cases two : text.length ≤ 0xffff
  · rw [if_pos two, List.cons_append, readWith_cons (.raw 2) some rfl]
    exact behind 2 (by omega)
  · rw [if_neg two, List.cons_append, readWith_cons .raw32 some rfl]
    exact behind 4 (by omega)

/-- How many elements a list has is read back. -/
theorem readWith_list {n : Nat} (some : 0 < room) (fits : n < 2 ^ 32) (rest : Bytes) :
    readWith key value room (mpCountBytes 0x90 0xdc 0xdd n ++ rest) =
      readList value room n rest := by
  rw [mpCountBytes]
  by_cases fix : n ≤ 15
  · rw [if_pos fix, List.singleton_append, readWith_cons _ some (mpHead_fixArray n (by omega))]
    rfl
  rw [if_neg fix]
  by_cases two : n ≤ 65535
  · rw [if_pos two, List.cons_append, readWith_cons (.array 2) some rfl, readHead,
      Reader.bind_apply, readNumber_bigEndian, Reader.andThen_done, Nat.mod_eq_of_lt (by omega)]
  · rw [if_neg two, List.cons_append, readWith_cons (.array 4) some rfl, readHead,
      Reader.bind_apply, readNumber_bigEndian, Reader.andThen_done, Nat.mod_eq_of_lt (by omega)]

/-- How many entries a record has is read back. -/
theorem readWith_record {n : Nat} (some : 0 < room) (fits : n < 2 ^ 32) (rest : Bytes) :
    readWith key value room (mpCountBytes 0x80 0xde 0xdf n ++ rest) =
      readRecord key value n rest := by
  rw [mpCountBytes]
  by_cases fix : n ≤ 15
  · rw [if_pos fix, List.singleton_append, readWith_cons _ some (mpHead_fixMap n (by omega))]
    rfl
  rw [if_neg fix]
  by_cases two : n ≤ 65535
  · rw [if_pos two, List.cons_append, readWith_cons (.map 2) some rfl, readHead,
      Reader.bind_apply, readNumber_bigEndian, Reader.andThen_done, Nat.mod_eq_of_lt (by omega)]
  · rw [if_neg two, List.cons_append, readWith_cons (.map 4) some rfl, readHead,
      Reader.bind_apply, readNumber_bigEndian, Reader.andThen_done, Nat.mod_eq_of_lt (by omega)]

/-- The bytes of a list are those of its elements. -/
theorem listBytes_eq (elements : List MpTree) :
    MpTree.listBytes host elements = elements.flatMap (MpTree.bytes host) := by
  induction elements with
  | nil => rfl
  | cons element rest inductionHypothesis =>
      rw [MpTree.listBytes, inductionHypothesis, List.flatMap_cons]

/-- The bytes of a record are those of its keys and values in turn. -/
theorem recordBytes_eq (entries : List (MpTree × MpTree)) : MpTree.recordBytes host entries =
    entries.flatMap fun entry => entry.1.bytes host ++ entry.2.bytes host := by
  induction entries with
  | nil => rfl
  | cons entry rest inductionHypothesis =>
      rw [MpTree.recordBytes, inductionHypothesis, List.flatMap_cons, List.append_assoc]

/-- An entry is read when its key and its value are, and the key may be one. -/
theorem readEntry_done {left right : MpTree} {input between rest : Bytes}
    (first : key input = .done left between) (second : value between = .done right rest)
    (isKey : left.keyFault = none) : readEntry key value input = .done (left, right) rest := by
  rw [readEntry, Reader.bind_apply, first, Reader.andThen_done, Reader.bind_apply, second,
    Reader.andThen_done, isKey]
  rfl

/-- The readers of keys and elements that the reader of a tree uses. -/
theorem readItem_eq (room : Nat) :
    readItem (room + 1) = readWith (readItem room) (readItem (room - 1)) (room + 1) := by
  cases room <;> rfl

/-- A tree without a list or a record in it is read back. -/
theorem readItem_leaf {tree : MpTree} (sound : tree.Sound 0) (room : Nat) (rest : Bytes) :
    readItem (room + 1) (tree.bytes host ++ rest) = .done tree rest := by
  rw [readItem_eq]
  cases tree with
  | nil => exact readWith_cons .nil (Nat.succ_pos _) rfl rest
  | boolean flag =>
      cases flag with
      | true => exact readWith_cons (.boolean true) (Nat.succ_pos _) rfl rest
      | false => exact readWith_cons (.boolean false) (Nat.succ_pos _) rfl rest
  | number n => exact readWith_number (Nat.succ_pos _) sound rest
  | string text => exact readWith_string (Nat.succ_pos _) sound rest
  | list elements => exact sound.elim
  | record entries => exact sound.elim

/-- A tree is read back from its bytes, when each level of it finds two slots. -/
theorem readItem_bytes {levels : Nat} {tree : MpTree} (sound : tree.Sound levels)
    (enough : 2 * levels < room) (rest : Bytes) :
    readItem room (tree.bytes host ++ rest) = .done tree rest := by
  obtain ⟨room, rfl⟩ := Nat.exists_eq_add_of_le' (show 1 ≤ room by omega)
  induction levels generalizing room tree rest with
  | zero => exact readItem_leaf sound room rest
  | succ levels inductionHypothesis =>
      cases tree with
      | nil | boolean _ | number _ | string _ =>
          apply readItem_leaf
          exact sound
      | list elements =>
          obtain ⟨few, each⟩ := sound
          obtain ⟨room, rfl⟩ := Nat.exists_eq_add_of_le' (show 2 ≤ room by omega)
          have inner := Reader.repeated_flatMap (MpTree.bytes host)
            (fun element member rest => inductionHypothesis (each element member) rest room
              (by omega)) rest
          rw [readItem_eq, MpTree.bytes, List.append_assoc, readWith_list (Nat.succ_pos _) few,
            listBytes_eq, readList, if_neg (by omega), Reader.bind_apply]
          rw [show room + 2 - 1 = room + 1 from rfl, inner]
          rfl
      | record entries =>
          obtain ⟨few, each⟩ := sound
          obtain ⟨room, rfl⟩ := Nat.exists_eq_add_of_le' (show 2 ≤ room by omega)
          have inner := Reader.repeated_flatMap
            (fun entry : MpTree × MpTree => entry.1.bytes host ++ entry.2.bytes host)
            (fun entry member rest => by
              obtain ⟨key, isKey, value⟩ := each entry member
              have first := inductionHypothesis key (entry.2.bytes host ++ rest) (room + 1)
                (by omega)
              have second := inductionHypothesis value rest room (by omega)
              rw [← List.append_assoc] at first
              exact readEntry_done first second isKey) rest
          rw [readItem_eq, MpTree.bytes, List.append_assoc, readWith_record (Nat.succ_pos _) few,
            recordBytes_eq, readRecord, Reader.bind_apply]
          rw [show room + 2 - 1 = room + 1 from rfl, inner]
          rfl

end Texts

end ValkeyLuajit
