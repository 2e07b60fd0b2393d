import Mathlib.Algebra.Group.Nat.Defs
import Mathlib.Data.List.Basic
import Mathlib.Data.List.TakeWhile

/-!
# Blocks of memory

A block is a run of bytes. Places in it are counted from its start; a place may be named
that lies outside, but not read or written. A C string in a block reaches up to the first
NUL, which belongs to the block.
-/

namespace ValkeyLuajit

/-- The bytes of a block, in order. -/
abbrev Block := List UInt8

/-- `SIZE_MAX`. -/
def sizeMax : Nat := 2 ^ 64 - 1

namespace Block

/-- Read the byte at a place inside. -/
def load (block : Block) (place : Int) : Option UInt8 :=
  if 0 ≤ place then block[place.toNat]? else none

/-- Write the byte at a place inside. -/
def store (block : Block) (place : Int) (byte : UInt8) : Option Block :=
  if 0 ≤ place ∧ place < block.length then some (block.set place.toNat byte) else none

/-- Read as many bytes from a place on. -/
def loadRange (block : Block) (place : Int) : Nat → Option (List UInt8)
  | 0 => some []
  | n + 1 => do
      let byte ← block.load place
      let rest ← block.loadRange (place + 1) n
      some (byte :: rest)

/-- Write bytes from a place on. -/
def storeRange (block : Block) (place : Int) : List UInt8 → Option Block
  | [] => some block
  | byte :: rest => do
      let block ← block.store place byte
      block.storeRange (place + 1) rest

/-- `memmove` inside a block: all bytes are read before the first is written. -/
def memmove (block : Block) (dest src : Int) (n : Nat) : Option Block := do
  let bytes ← block.loadRange src n
  block.storeRange dest bytes

/-- The string at the place, without its NUL. -/
def string (block : Block) (place : Int) : Option (List UInt8) :=
  let rest := block.drop place.toNat
  if 0 ≤ place ∧ 0 ∈ rest then some (rest.takeWhile (· ≠ 0)) else none

/-- `strlen`. -/
def strlen (block : Block) (place : Int) : Option Nat := (block.string place).map List.length

/-- `strtok_r` from where the last token ended: where the next token starts, if there is one,
the block with a NUL behind it, and where to go on. -/
def strtokR (isSeparator : UInt8 → Bool) (block : Block) (saveptr : Int) :
    Option (Option Int × Block × Int) := do
  let text ← block.string saveptr
  let start := saveptr + (text.takeWhile isSeparator).length
  let rest := text.dropWhile isSeparator
  let token := rest.takeWhile (! isSeparator ·)
  let stop := start + token.length
  if rest = [] then some (none, block, stop)
  else if token = rest then some (some start, block, stop)
  else do
    let block ← block.store stop 0
    some (some start, block, stop + 1)

/-- `realloc`: what is new is zero. -/
def realloc (block : Block) (size : Nat) : Block :=
  block.take size ++ List.replicate (size - block.length) 0

/-- The string at the place is this text. -/
def Holds (block : Block) (place : Nat) (text : List UInt8) : Prop :=
  0 ∉ text ∧ ∃ back, block.drop place = text ++ 0 :: back

variable {block : Block} {place : Nat} {text front : List UInt8} {byte : UInt8}

/-- Writing between two parts. -/
theorem store_append (front back : Block) (old byte : UInt8) :
    store (front ++ old :: back) front.length byte = some (front ++ byte :: back) := by
  have inside : (front.length : Int) < ((front ++ old :: back).length : Nat) := by
    rw [List.length_append, List.length_cons]
    omega
  rw [store, if_pos ⟨Int.natCast_nonneg _, inside⟩, Int.toNat_natCast,
    List.set_append_right _ _ (Nat.le_refl _), Nat.sub_self]
  rfl

/-- Reading between two parts. -/
theorem load_append (front back : Block) (byte : UInt8) :
    load (front ++ byte :: back) front.length = some byte := by
  rw [load, if_pos (Int.natCast_nonneg _), Int.toNat_natCast]
  simp

theorem loadRange_append (front bytes back : Block) :
    loadRange (front ++ (bytes ++ back)) front.length bytes.length = some bytes := by
  induction bytes generalizing front with
  | nil => rfl
  | cons byte bytes inductionHypothesis =>
      have next := inductionHypothesis (front ++ [byte])
      rw [List.append_assoc, List.length_append] at next
      rw [List.cons_append, List.length_cons, loadRange, load_append]
      simp only [Option.bind_eq_bind, Option.bind_some]
      have place : (front.length : Int) + 1 = (front.length + [byte].length : Nat) := rfl
      rw [place, ← List.singleton_append, next]
      rfl

theorem storeRange_append (front bytes back : Block) {old : Block}
    (same : old.length = bytes.length) :
    storeRange (front ++ (old ++ back)) front.length bytes = some (front ++ (bytes ++ back)) := by
  induction bytes generalizing front old with
  | nil =>
      obtain rfl := List.length_eq_zero_iff.mp same
      rfl
  | cons byte bytes inductionHypothesis =>
      obtain ⟨first, old, rfl⟩ := List.exists_cons_of_length_eq_add_one same
      have next := inductionHypothesis (front ++ [byte]) (Nat.succ_injective same)
      rw [List.append_assoc, List.length_append, List.append_assoc] at next
      rw [List.cons_append, storeRange, store_append]
      exact next

/-- Reading from a place on, as far as the block reaches. -/
theorem loadRange_of_le {n : Nat} (fits : place + n ≤ block.length) :
    block.loadRange place n = some ((block.drop place).take n) := by
  have front : (block.take place).length = place := by
    rw [List.length_take]
    omega
  have middle : ((block.drop place).take n).length = n := by
    rw [List.length_take, List.length_drop]
    omega
  have whole := loadRange_append (block.take place) ((block.drop place).take n)
    ((block.drop place).drop n)
  rwa [List.take_append_drop, List.take_append_drop, front, middle] at whole

/-- Writing from a place on, as far as the block reaches. -/
theorem storeRange_of_le {bytes : List UInt8} (fits : place + bytes.length ≤ block.length) :
    block.storeRange place bytes =
      some (block.take place ++ (bytes ++ block.drop (place + bytes.length))) := by
  have front : (block.take place).length = place := by
    rw [List.length_take]
    omega
  have middle : ((block.drop place).take bytes.length).length = bytes.length := by
    rw [List.length_take, List.length_drop]
    omega
  have whole := storeRange_append (block.take place) bytes
    ((block.drop place).drop bytes.length) middle
  rwa [List.take_append_drop, List.take_append_drop, front, List.drop_drop] at whole

theorem length_realloc (block : Block) (size : Nat) : (block.realloc size).length = size := by
  rw [realloc, List.length_append, List.length_take, List.length_replicate]
  omega

theorem take_realloc {size n : Nat} (kept : n ≤ size) (inside : n ≤ block.length) :
    (block.realloc size).take n = block.take n := by
  rw [realloc, List.take_append_of_le_length (by rw [List.length_take]; omega), List.take_take,
    Nat.min_eq_left kept]

/-- Moving a part of a block to its start. -/
theorem memmove_to_start (front bytes back : Block) :
    memmove (front ++ (bytes ++ back)) 0 front.length bytes.length =
      some (bytes ++ (front ++ (bytes ++ back)).drop bytes.length) := by
  let block := front ++ (bytes ++ back)
  have fits : (block.take bytes.length).length = bytes.length := by
    rw [List.length_take, List.length_append, List.length_append]
    omega
  have stored := storeRange_append [] bytes (block.drop bytes.length) fits
  rw [List.take_append_drop] at stored
  rw [memmove, loadRange_append]
  exact stored

/-- A block with a NUL at its end holds a string. -/
theorem holds_append_zero (text : List UInt8) :
    Holds (text ++ [0]) 0 (text.takeWhile (· ≠ 0)) := by
  refine ⟨fun member => by simpa using List.mem_takeWhile_imp member, ?_⟩
  cases parts : text.dropWhile (· ≠ 0) with
  | nil =>
      have whole := List.takeWhile_append_dropWhile (p := (· ≠ 0)) (l := text)
      rw [parts, List.append_nil] at whole
      exact ⟨[], by rw [whole]; rfl⟩
  | cons first rest =>
      obtain rfl : first = 0 := by
        have unlike := List.head?_dropWhile_not (· ≠ 0) text
        rw [parts] at unlike
        simpa using unlike
      refine ⟨rest ++ [0], ?_⟩
      rw [← List.cons_append, ← parts, ← List.append_assoc,
        List.takeWhile_append_dropWhile]
      rfl

namespace Holds

theorem string_eq (holds : Holds block place text) : block.string place = some text := by
  obtain ⟨unbroken, back, parts⟩ := holds
  have whole : (text ++ 0 :: back).takeWhile (· ≠ 0) = text := by
    rw [List.takeWhile_append_of_pos fun byte member => by
      simpa using fun same : byte = 0 => unbroken (same ▸ member)]
    simp
  rw [string, Int.toNat_natCast, parts, if_pos (by simp), whole]

theorem strlen_eq (holds : Holds block place text) : block.strlen place = some text.length := by
  rw [strlen, holds.string_eq]
  rfl

/-- Behind a part of the string there is the rest of it. -/
theorem skip (holds : Holds block place (front ++ text)) :
    Holds block (place + front.length) text := by
  obtain ⟨unbroken, back, parts⟩ := holds
  refine ⟨fun member => unbroken (List.mem_append_right _ member), back, ?_⟩
  rw [← List.drop_drop, parts, List.append_assoc, List.drop_left]

/-- The NUL belongs to the block. -/
theorem inside (holds : Holds block place text) : place + text.length < block.length := by
  obtain ⟨-, back, parts⟩ := holds
  have lengths := congrArg List.length parts
  simp at lengths
  omega

/-- The first byte is that of the text, or the NUL. -/
theorem load_eq (holds : Holds block place text) :
    block.load place = some (text.head?.getD 0) := by
  obtain ⟨-, back, parts⟩ := holds
  have first : block[place]? = (block.drop place).head? := List.head?_drop.symm
  rw [load, if_pos (Int.natCast_nonneg place), Int.toNat_natCast, first, parts]
  cases text <;> rfl

/-- A NUL inside a string cuts it, and leaves every string that starts behind it alone. -/
theorem cut (holds : Holds block place (front ++ text)) :
    ∃ after, block.store (place + front.length : Nat) 0 = some after ∧ Holds after place front ∧
      ∀ later other, Holds block later other → place + front.length < later →
        Holds after later other := by
  have inside := holds.inside
  rw [List.length_append] at inside
  refine ⟨block.set (place + front.length) 0, ?_, ⟨?_, ?_⟩, ?_⟩
  · rw [store, if_pos ⟨by omega, by omega⟩, Int.toNat_natCast]
  · exact fun member => holds.1 (List.mem_append_left _ member)
  · obtain ⟨-, back, parts⟩ := holds
    refine ⟨((text ++ 0 :: back).drop 1), ?_⟩
    have shift : place + front.length - place = front.length := by omega
    rw [List.drop_set, if_neg (by omega), parts, shift, List.append_assoc,
      List.set_append_right _ _ (Nat.le_refl _), Nat.sub_self]
    cases text <;> rfl
  · rintro later other ⟨unbroken, back, parts⟩ behind
    exact ⟨unbroken, back, by rw [List.drop_set, if_pos behind, parts]⟩

end Holds

/-- The parts of a text between separators, without the empty ones. -/
def pieces (isSeparator : UInt8 → Bool) (text : List UInt8) : List (List UInt8) :=
  (text.splitOnP isSeparator).filter (· ≠ [])

section

variable {isSeparator : UInt8 → Bool} {separator : UInt8} {token more : List UInt8}

@[simp] theorem pieces_nil : pieces isSeparator [] = [] := by simp [pieces]

/-- Separators in front do not matter. -/
theorem pieces_dropWhile : pieces isSeparator (text.dropWhile isSeparator) = pieces isSeparator text := by
  induction text with
  | nil => rfl
  | cons byte text inductionHypothesis =>
      by_cases separates : isSeparator byte
      · rw [List.dropWhile_cons_of_pos separates, inductionHypothesis]
        simp [pieces, List.splitOnP_cons_eq_if_modifyHead, separates]
      · rw [List.dropWhile_cons_of_neg separates]

theorem pieces_single (nonempty : token ≠ []) (whole : ∀ byte ∈ token, isSeparator byte = false) :
    pieces isSeparator token = [token] := by
  simp [pieces, List.splitOnP_eq_singleton whole, nonempty]

theorem pieces_append (nonempty : token ≠ []) (whole : ∀ byte ∈ token, isSeparator byte = false)
    (separates : isSeparator separator) :
    pieces isSeparator (token ++ separator :: more) = token :: pieces isSeparator more := by
  simp [pieces, List.splitOnP_append_cons_of_forall_mem whole separator separates, nonempty]

/-- A piece has no separator in it, and nothing that the text has not. -/
theorem mem_pieces (member : token ∈ pieces isSeparator text) :
    token ≠ [] ∧ ∀ byte ∈ token, isSeparator byte = false ∧ byte ∈ text := by
  obtain ⟨part, nonempty⟩ := List.mem_filter.mp member
  refine ⟨by simpa using nonempty, ?_⟩
  clear member nonempty
  induction text generalizing token with
  | nil =>
      obtain rfl : token = [] := by simpa using part
      simp
  | cons first text inductionHypothesis =>
      rw [List.splitOnP_cons_eq_if_modifyHead] at part
      split at part
      · rcases List.mem_cons.mp part with rfl | part
        · simp
        · intro byte inside
          obtain ⟨apart, there⟩ := inductionHypothesis part byte inside
          exact ⟨apart, List.mem_cons_of_mem _ there⟩
      · next stays =>
          obtain ⟨head, tail, parts⟩ :=
            List.exists_cons_of_ne_nil (List.splitOnP_ne_nil isSeparator text)
          rw [parts, List.modifyHead_cons] at part
          rcases List.mem_cons.mp part with rfl | part
          · intro byte inside
            rcases List.mem_cons.mp inside with rfl | inside
            · exact ⟨by simpa using stays, List.mem_cons_self⟩
            · obtain ⟨apart, there⟩ := inductionHypothesis
                (by rw [parts]; exact List.mem_cons_self) byte inside
              exact ⟨apart, List.mem_cons_of_mem _ there⟩
          · intro byte inside
            obtain ⟨apart, there⟩ := inductionHypothesis
              (by rw [parts]; exact List.mem_cons_of_mem _ part) byte inside
            exact ⟨apart, List.mem_cons_of_mem _ there⟩

/-- `strtok_r` finds the pieces one after the other, each as a string of its own. -/
theorem Holds.strtokR_cases (holds : Holds block place text) :
    (pieces isSeparator text = [] ∧
      strtokR isSeparator block place = some (none, block, ((place + text.length : Nat) : Int))) ∨
    ∃ token more after, ∃ start next : Nat,
      pieces isSeparator text = token :: pieces isSeparator more ∧
        strtokR isSeparator block place = some (some (start : Int), after, (next : Int)) ∧
        Holds after start token ∧ Holds after next more ∧ more.length < text.length ∧
        (start + token.length < next ∨ start + token.length = next ∧ more = []) := by
  have split := List.takeWhile_append_dropWhile (p := isSeparator) (l := text)
  let start := place + (text.takeWhile isSeparator).length
  have there : Holds block start (text.dropWhile isSeparator) := by
    apply Holds.skip
    rwa [split]
  have unlike := List.head?_dropWhile_not isSeparator text
  rw [strtokR, holds.string_eq, ← pieces_dropWhile]
  cases rest : text.dropWhile isSeparator with
  | nil =>
      rw [rest, List.append_nil] at split
      refine .inl ⟨pieces_nil, ?_⟩
      simp only [Option.bind_eq_bind, Option.bind_some, rest, split, if_true, List.takeWhile_nil,
        List.length_nil]
      rfl
  | cons first others =>
      rw [rest] at there unlike
      let token := (first :: others).takeWhile (! isSeparator ·)
      have split' := List.takeWhile_append_dropWhile (p := (! isSeparator ·)) (l := first :: others)
      have stays : isSeparator first = false := unlike
      have nonempty : token ≠ [] := by simp [token, stays]
      have whole : ∀ byte ∈ token, isSeparator byte = false := fun byte member => by
        simpa using List.mem_takeWhile_imp member
      refine .inr ?_
      cases behind : (first :: others).dropWhile (! isSeparator ·) with
      | nil =>
          rw [behind, List.append_nil] at split'
          have last : token = first :: others := split'
          have shorter : ([] : List UInt8).length < text.length := by
            rw [← split, rest, List.length_append, List.length_cons]
            exact Nat.succ_pos _
          refine ⟨token, [], block, start, start + token.length, ?_, ?_, ?_, ?_, shorter, by simp⟩
          · rw [← last, pieces_single nonempty whole, pieces_nil]
          · simp only [Option.bind_eq_bind, Option.bind_some, rest, if_neg (List.cons_ne_nil _ _)]
            rw [if_pos last]
            rfl
          · rwa [last]
          · apply Holds.skip
            rwa [List.append_nil, last]
      | cons separator more =>
          have unlike' := List.head?_dropWhile_not (! isSeparator ·) (first :: others)
          rw [behind] at unlike' split'
          have separates : isSeparator separator := by simpa using unlike'
          have parts : token ++ separator :: more = first :: others := split'
          rw [← parts] at there
          obtain ⟨after, stored, cut, frame⟩ := there.cut
          have shorter : more.length < text.length := by
            rw [← split, rest, ← parts]
            simp
            omega
          refine ⟨token, more, after, start, start + token.length + 1, ?_, ?_, cut, ?_, shorter,
            by omega⟩
          · rw [← parts, pieces_append nonempty whole separates]
          · have cutOff : token ≠ first :: others := by simp [← parts]
            simp only [Option.bind_eq_bind, Option.bind_some, rest, if_neg (List.cons_ne_nil _ _)]
            rw [if_neg cutOff]
            have place : ((place : Int) + ((text.takeWhile isSeparator).length : Nat) +
                (token.length : Nat)) = ((start + token.length : Nat) : Int) := rfl
            rw [place, stored]
            rfl
          · apply frame _ _ _ (Nat.lt_succ_self _)
            have later : Holds block (start + (token ++ [separator]).length) more := by
              apply Holds.skip
              rwa [List.append_assoc]
            rwa [List.length_append] at later

end

end Block

end ValkeyLuajit
