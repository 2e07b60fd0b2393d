import Mathlib.Data.List.Basic

/-!
# JSON texts

A JSON value is a tree. A grammar says which texts spell a tree; what a dialect leaves open is
which characters a string may have as they are, and how numbers are spelled. Every tree has a
compact text.
-/

namespace ValkeyLuajit

/-- A JSON value, with this type of numbers. -/
inductive Json (ν : Type) where
  | null
  | boolean (value : Bool)
  | number (value : ν)
  | string (chars : List UInt8)
  | array (elements : List (Json ν))
  | object (members : List (List UInt8 × Json ν))

namespace Json

variable {ν μ : Type}

/-- Induction over a tree: a container has the property when what it contains has. -/
@[induction_eliminator]
theorem induction {motive : Json ν → Prop} (null : motive .null)
    (boolean : ∀ value, motive (.boolean value)) (number : ∀ value, motive (.number value))
    (string : ∀ chars, motive (.string chars))
    (array : ∀ elements, (∀ element ∈ elements, motive element) → motive (.array elements))
    (object : ∀ members, (∀ member ∈ members, motive member.2) → motive (.object members))
    (tree : Json ν) : motive tree :=
  Json.rec (motive_1 := motive)
    (motive_2 := fun elements => ∀ element ∈ elements, motive element)
    (motive_3 := fun members => ∀ member ∈ members, motive member.2)
    (motive_4 := fun member => motive member.2)
    null boolean number string array object
    (by simp) (fun _ _ head tail => List.forall_mem_cons.mpr ⟨head, tail⟩)
    (by simp) (fun _ _ head tail => List.forall_mem_cons.mpr ⟨head, tail⟩)
    (fun _ _ value => value) tree

mutual

/-- The tree with other numbers. -/
def map (f : ν → μ) : Json ν → Json μ
  | .null => .null
  | .boolean value => .boolean value
  | .number value => .number (f value)
  | .string chars => .string chars
  | .array elements => .array (mapEach f elements)
  | .object members => .object (mapMembers f members)

def mapEach (f : ν → μ) : List (Json ν) → List (Json μ)
  | [] => []
  | element :: rest => map f element :: mapEach f rest

def mapMembers (f : ν → μ) : List (List UInt8 × Json ν) → List (List UInt8 × Json μ)
  | [] => []
  | (key, value) :: rest => (key, map f value) :: mapMembers f rest

end

mutual

/-- All numbers of the tree are like this. -/
def Numbers (good : ν → Prop) : Json ν → Prop
  | .number value => good value
  | .array elements => NumbersEach good elements
  | .object members => NumbersMembers good members
  | _ => True

def NumbersEach (good : ν → Prop) : List (Json ν) → Prop
  | [] => True
  | element :: rest => Numbers good element ∧ NumbersEach good rest

def NumbersMembers (good : ν → Prop) : List (List UInt8 × Json ν) → Prop
  | [] => True
  | (_, value) :: rest => Numbers good value ∧ NumbersMembers good rest

end

/-- White space. -/
def IsBlank (char : UInt8) : Prop := char = 0x20 ∨ char = 0x09 ∨ char = 0x0a ∨ char = 0x0d

instance (char : UInt8) : Decidable (IsBlank char) := inferInstanceAs (Decidable (_ ∨ _))

/-- A text of white space. -/
def Blank (text : List UInt8) : Prop := ∀ char ∈ text, IsBlank char

/-- White space around a text like this. -/
def Padded (spells : List UInt8 → Prop) (text : List UInt8) : Prop :=
  ∃ before inner after, Blank before ∧ spells inner ∧ Blank after ∧ text = before ++ (inner ++ after)

/-- The worth of a hexadecimal digit. -/
def hexWorth (char : UInt8) : Option Nat :=
  if 48 ≤ char ∧ char ≤ 57 then some (char.toNat - 48)
  else if 97 ≤ char ∧ char ≤ 102 then some (char.toNat - 87)
  else if 65 ≤ char ∧ char ≤ 70 then some (char.toNat - 55)
  else none

/-- The code unit that four hexadecimal digits stand for. -/
def codeUnit : List UInt8 → Option Nat
  | [a, b, c, d] => do
      let a ← hexWorth a
      let b ← hexWorth b
      let c ← hexWorth c
      let d ← hexWorth d
      some (((a * 16 + b) * 16 + c) * 16 + d)
  | _ => none

/-- The bytes of a character. -/
def utf8 (code : Nat) : List UInt8 := String.utf8EncodeChar (Char.ofNat code)

/-- The character that a letter behind a backslash stands for. -/
def escaped (letter : UInt8) : Option UInt8 :=
  match letter.toNat with
  | 0x22 => some 0x22
  | 0x2f => some 0x2f
  | 0x5c => some 0x5c
  | 0x62 => some 0x08
  | 0x66 => some 0x0c
  | 0x6e => some 0x0a
  | 0x72 => some 0x0d
  | 0x74 => some 0x09
  | _ => none

/-- These characters can be spelled so between quotation marks. -/
inductive Chars (plain : UInt8 → Prop) : List UInt8 → List UInt8 → Prop
  | nil : Chars plain [] []
  | plain {char : UInt8} {chars text : List UInt8} : plain char → Chars plain chars text →
      Chars plain (char :: chars) (char :: text)
  | short {letter char : UInt8} {chars text : List UInt8} : escaped letter = some char →
      Chars plain chars text → Chars plain (char :: chars) (0x5c :: letter :: text)
  | unit {digits chars text : List UInt8} {code : Nat} : codeUnit digits = some code →
      ¬ (0xd800 ≤ code ∧ code < 0xe000) → Chars plain chars text →
      Chars plain (utf8 code ++ chars) (0x5c :: 0x75 :: (digits ++ text))
  | pair {digits digits' chars text : List UInt8} {high low : Nat} : high < 0x400 → low < 0x400 →
      codeUnit digits = some (0xd800 + high) → codeUnit digits' = some (0xdc00 + low) →
      Chars plain chars text →
      Chars plain (utf8 (0x10000 + high * 0x400 + low) ++ chars)
        (0x5c :: 0x75 :: (digits ++ 0x5c :: 0x75 :: (digits' ++ text)))

/-- What dialects differ in: the characters that strings have as they are, and how numbers are
spelled. -/
structure Dialect (ν : Type) where
  plain : UInt8 → Prop
  number : ν → List UInt8 → Prop

/-- Texts with commas between them, and white space if there are none, in brackets. -/
def Enclosed (left right : UInt8) : List (List UInt8) → List UInt8 → Prop
  | [], text => ∃ blanks, Blank blanks ∧ text = left :: (blanks ++ [right])
  | first :: rest, text => text = left :: (first ++ (rest.flatMap (0x2c :: ·) ++ [right]))

section Grammar

variable (dialect : Dialect ν)

/-- The text is a string in quotation marks. -/
def Quotes (chars text : List UInt8) : Prop :=
  ∃ inside, text = 0x22 :: (inside ++ [0x22]) ∧ Chars dialect.plain chars inside

mutual

/-- The text spells the tree. -/
def Spells : Json ν → List UInt8 → Prop
  | .null, text => text = [0x6e, 0x75, 0x6c, 0x6c]
  | .boolean true, text => text = [0x74, 0x72, 0x75, 0x65]
  | .boolean false, text => text = [0x66, 0x61, 0x6c, 0x73, 0x65]
  | .number value, text => dialect.number value text
  | .string chars, text => Quotes dialect chars text
  | .array elements, text => ∃ texts, SpellsEach elements texts ∧ Enclosed 0x5b 0x5d texts text
  | .object members, text => ∃ texts, SpellsMembers members texts ∧ Enclosed 0x7b 0x7d texts text

def SpellsEach : List (Json ν) → List (List UInt8) → Prop
  | [], texts => texts = []
  | element :: rest, texts => ∃ text others, texts = text :: others ∧
      Padded (Spells element) text ∧ SpellsEach rest others

def SpellsMembers : List (List UInt8 × Json ν) → List (List UInt8) → Prop
  | [], texts => texts = []
  | (key, value) :: rest, texts => ∃ name text others, texts = (name ++ 0x3a :: text) :: others ∧
      Padded (Quotes dialect key) name ∧ Padded (Spells value) text ∧ SpellsMembers rest others

end

end Grammar

section Printing

variable (number : ν → List UInt8) (char : UInt8 → List UInt8)

/-- A string in quotation marks. -/
def quoted (chars : List UInt8) : List UInt8 := 0x22 :: (chars.flatMap char ++ [0x22])

/-- Texts with commas between them. -/
def separated : List (List UInt8) → List UInt8
  | [] => []
  | first :: rest => first ++ rest.flatMap (0x2c :: ·)

mutual

/-- The compact text of a tree, with the texts of numbers and characters. -/
def print : Json ν → List UInt8
  | .null => [0x6e, 0x75, 0x6c, 0x6c]
  | .boolean true => [0x74, 0x72, 0x75, 0x65]
  | .boolean false => [0x66, 0x61, 0x6c, 0x73, 0x65]
  | .number value => number value
  | .string chars => quoted char chars
  | .array elements => 0x5b :: (separated (printEach elements) ++ [0x5d])
  | .object members => 0x7b :: (separated (printMembers members) ++ [0x7d])

def printEach : List (Json ν) → List (List UInt8)
  | [] => []
  | element :: rest => print element :: printEach rest

def printMembers : List (List UInt8 × Json ν) → List (List UInt8)
  | [] => []
  | (key, value) :: rest => (quoted char key ++ 0x3a :: print value) :: printMembers rest

end

end Printing

/-- With more characters that need no escape, what is spelled stays spelled. -/
theorem Chars.mono {plain loose : UInt8 → Prop} (more : ∀ char, plain char → loose char)
    {chars text : List UInt8} (spelled : Chars plain chars text) : Chars loose chars text := by
  induction spelled with
  | nil => exact .nil
  | plain char _ inductionHypothesis => exact .plain (more _ char) inductionHypothesis
  | short letter _ inductionHypothesis => exact .short letter inductionHypothesis
  | unit unit apart _ inductionHypothesis => exact .unit unit apart inductionHypothesis
  | pair high low first second _ inductionHypothesis =>
      exact .pair high low first second inductionHypothesis

theorem blank_nil : Blank [] := by simp [Blank]

theorem padded_of {spells : List UInt8 → Prop} {text : List UInt8} (spelled : spells text) :
    Padded spells text := ⟨[], text, [], blank_nil, spelled, blank_nil, by simp⟩

/-- Texts with commas, in brackets. -/
theorem enclosed_separated (left right : UInt8) (texts : List (List UInt8)) :
    Enclosed left right texts (left :: (separated texts ++ [right])) := by
  cases texts with
  | nil => exact ⟨[], blank_nil, rfl⟩
  | cons first rest => simp [Enclosed, separated]

section Compact

variable {dialect : Dialect μ} {number : ν → List UInt8} {char : UInt8 → List UInt8} {f : ν → μ}

/-- A string is spelled by the texts of its characters. -/
theorem quotes_quoted (chars : ∀ c rest text, Chars dialect.plain rest text →
      Chars dialect.plain (c :: rest) (char c ++ text)) (string : List UInt8) :
    Quotes dialect string (quoted char string) := by
  refine ⟨string.flatMap char, rfl, ?_⟩
  induction string with
  | nil => exact .nil
  | cons c rest inductionHypothesis => exact chars c rest _ inductionHypothesis

variable {good : ν → Prop}

theorem spellsEach_printEach {elements : List (Json ν)} (numbers : NumbersEach good elements)
    (each : ∀ element ∈ elements, Numbers good element →
      Spells dialect (map f element) (print number char element)) :
    SpellsEach dialect (mapEach f elements) (printEach number char elements) := by
  induction elements with
  | nil => rfl
  | cons element rest inductionHypothesis =>
      exact ⟨_, _, rfl, padded_of (each element List.mem_cons_self numbers.1),
        inductionHypothesis numbers.2 fun other member => each other (List.mem_cons_of_mem _ member)⟩

theorem spellsMembers_printMembers {members : List (List UInt8 × Json ν)}
    (chars : ∀ c rest text, Chars dialect.plain rest text →
      Chars dialect.plain (c :: rest) (char c ++ text))
    (numbers : NumbersMembers good members)
    (each : ∀ member ∈ members, Numbers good member.2 →
      Spells dialect (map f member.2) (print number char member.2)) :
    SpellsMembers dialect (mapMembers f members) (printMembers number char members) := by
  induction members with
  | nil => rfl
  | cons member rest inductionHypothesis =>
      exact ⟨_, _, _, rfl, padded_of (quotes_quoted chars member.1),
        padded_of (each member List.mem_cons_self numbers.1),
        inductionHypothesis numbers.2 fun other inside => each other (List.mem_cons_of_mem _ inside)⟩

/-- The compact text spells the tree, with the numbers that their texts stand for. -/
theorem spells_print (chars : ∀ c rest text, Chars dialect.plain rest text →
      Chars dialect.plain (c :: rest) (char c ++ text))
    (spelled : ∀ value, good value → dialect.number (f value) (number value)) {tree : Json ν}
    (numbers : Numbers good tree) : Spells dialect (map f tree) (print number char tree) := by
  induction tree with
  | null => rfl
  | boolean value => cases value <;> rfl
  | number value => exact spelled value numbers
  | string string => exact quotes_quoted chars string
  | array elements each =>
      exact ⟨_, spellsEach_printEach numbers fun element member => each element member,
        enclosed_separated ..⟩
  | object members each =>
      exact ⟨_, spellsMembers_printMembers chars numbers fun member inside => each member inside,
        enclosed_separated ..⟩

end Compact

end Json

end ValkeyLuajit
