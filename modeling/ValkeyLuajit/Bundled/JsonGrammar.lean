import ValkeyLuajit.Bundled.JsonWritten

/-!
# The encoder writes JSON

The compact text of a tree is spelled by the grammar of JSON, with each number rounded to the
digits that are written. Only the setting that has infinities and NaN written leads out of the
grammar.
-/

namespace ValkeyLuajit

open Lua

/-- JSON proper: control characters, quotation marks and backslashes have to be escaped, and a
number is a decimal numeral without leading zeros. -/
def jsonDialect : Json.Dialect Number where
  plain char := 0x20 ≤ char ∧ char ≠ 0x22 ∧ char ≠ 0x5c
  number num text := ∃ numeral : Scientific, numeral.Plain ∧ text = numeral.text dot ∧
    num = toDouble numeral.value

/-- A number after it was written with so many digits. -/
def jsonRounded (cfg : JsonConfig) : Number → Number
  | .finite value =>
      toDouble (if value < 0 then -roundedTo (cfg.encodeNumberPrecision - 1) |value|
        else roundedTo (cfg.encodeNumberPrecision - 1) |value|)
  | other => other

/-- The number is finite. -/
def Lua.Number.IsFinite (num : Number) : Prop := ∃ value, num = .finite value

section Characters

/-- The text of a character is the character, or one of its escapes. -/
def jsonCharSpelled (char : UInt8) : Bool :=
  match char2escape char with
  | none => decide (0x20 ≤ char ∧ char ≠ 0x22 ∧ char ≠ 0x5c)
  | some [slash, letter] => slash == 0x5c && Json.escaped letter == some char
  | some (slash :: u :: digits) => slash == 0x5c && u == 0x75 &&
      Json.codeUnit digits == some char.toNat && Json.utf8 char.toNat == [char] && decide (char < 0x80)
  | _ => false

/-- Every one of the 256 characters is spelled so. -/
theorem jsonCharSpelled_eq (char : UInt8) : jsonCharSpelled char = true := by
  have all : ∀ n : Fin 256, jsonCharSpelled (UInt8.ofNat n) = true := by decide +kernel
  have here := all ⟨char.toNat, char.toNat_lt⟩
  rwa [UInt8.ofNat_toNat] at here

/-- A character in front of spelled characters. -/
theorem chars_jsonCharText (char : UInt8) (chars text : Bytes)
    (rest : Json.Chars jsonDialect.plain chars text) :
    Json.Chars jsonDialect.plain (char :: chars) (jsonCharText char ++ text) := by
  have spelled := jsonCharSpelled_eq char
  rw [jsonCharSpelled] at spelled
  rw [jsonCharText]
  split at spelled
  · rename_i none
    have plain := of_decide_eq_true spelled
    rw [none]
    exact .plain plain rest
  · rename_i slash letter escape
    simp only [Bool.and_eq_true, beq_iff_eq] at spelled
    obtain ⟨rfl, letter⟩ := spelled
    rw [escape]
    exact .short letter rest
  · rename_i slash u digits _ escape
    simp only [Bool.and_eq_true, beq_iff_eq, decide_eq_true_eq] at spelled
    obtain ⟨⟨⟨⟨rfl, rfl⟩, unit⟩, code⟩, ascii⟩ := spelled
    have below : char.toNat < 128 := ascii
    have spelled := Json.Chars.unit unit (by omega) rest
    rw [escape]
    rwa [code] at spelled
  · cases spelled

end Characters

section Numbers

/-- What a computation that goes well is made of. -/
theorem ok_of_bind {ε α β : Type} {first : Except ε α} {next : α → Except ε β} {last : β}
    (run : first >>= next = .ok last) : ∃ value, first = .ok value ∧ next value = .ok last := by
  cases first with
  | error error => cases run
  | ok value => exact ⟨value, rfl, run⟩

variable {host : JsonHost} {cfg : JsonConfig}

/-- A finite number is spelled by its text, up to the digits that are written. -/
theorem number_jsonNumberText {num : Number} (finite : num.IsFinite) :
    jsonDialect.number (jsonRounded cfg num) (jsonNumberText cfg num) := by
  obtain ⟨value, rfl⟩ := finite
  refine ⟨_, Scientific.plain_general (abs_nonneg value), rfl, ?_⟩
  rw [Scientific.value_general (abs_nonneg value)]
  simp only [jsonRounded, decide_eq_true_eq]

variable (proper : cfg.encodeInvalidNumbers ≠ .on)

include proper

/-- A number that is described is finite, unless others are allowed. -/
theorem numbers_jsonNumberTree {num : Number} {tree : Json Number}
    (described : jsonNumberTree cfg num = .ok tree) : tree.Numbers Number.IsFinite := by
  revert described
  cases setting : cfg.encodeInvalidNumbers <;> cases num <;>
    simp only [jsonNumberTree, setting] <;> intro described <;> cases described
  case off.finite | null.finite => exact ⟨_, rfl⟩
  case null.infinite | null.nan => trivial
  case on.finite => exact ⟨_, rfl⟩
  case on.infinite | on.nan => exact absurd setting proper

variable {describe : (height : Nat) → Value → Except JsonStop (Json Number)} {table : Table}
  {height : Nat}

omit proper in
/-- So are the numbers of an array, when those of its elements are. -/
theorem numbersEach_mapM {α : Type} {f : α → Except JsonStop (Json Number)}
    (each : ∀ value tree, f value = .ok tree → tree.Numbers Number.IsFinite) {values : List α}
    {trees : List (Json Number)} (described : values.mapM f = .ok trees) :
    Json.NumbersEach Number.IsFinite trees := by
  induction values generalizing trees with
  | nil =>
      cases described
      trivial
  | cons value values inductionHypothesis =>
      rw [List.mapM_cons] at described
      obtain ⟨tree, first, described⟩ := ok_of_bind described
      obtain ⟨rest, others, described⟩ := ok_of_bind described
      cases described
      exact ⟨each value tree first, inductionHypothesis others⟩

omit proper in
/-- So are the numbers of an object, when those of its members are. -/
theorem numbersMembers_mapM
    (each : ∀ height value tree, describe height value = .ok tree → tree.Numbers Number.IsFinite)
    {entries : List (Sigma fun _ : Value => Value)} {members : List (Bytes × Json Number)}
    (described : entries.mapM (jsonMemberTree cfg describe height) = .ok members) :
    Json.NumbersMembers Number.IsFinite members := by
  induction entries generalizing members with
  | nil =>
      cases described
      trivial
  | cons entry rest inductionHypothesis =>
      rw [List.mapM_cons] at described
      obtain ⟨member, first, described⟩ := ok_of_bind described
      obtain ⟨key, -, first⟩ := ok_of_bind first
      obtain ⟨tree, value, first⟩ := ok_of_bind first
      obtain ⟨members, others, described⟩ := ok_of_bind described
      cases first
      cases described
      exact ⟨each _ _ tree value, inductionHypothesis others⟩

omit proper in
/-- So are the numbers of a table, whichever it is taken for. -/
theorem numbers_jsonTableTree
    (each : ∀ height value tree, describe height value = .ok tree → tree.Numbers Number.IsFinite)
    {addr : Addr} {currentDepth : Nat} {tree : Json Number}
    (described : jsonTableTree host cfg describe addr table currentDepth height = .ok tree) :
    tree.Numbers Number.IsFinite := by
  obtain ⟨-, -, described⟩ := ok_of_bind described
  obtain ⟨len, -, described⟩ := ok_of_bind described
  split at described
  · obtain ⟨elements, elementwise, described⟩ := ok_of_bind described
    obtain ⟨-, -, described⟩ := ok_of_bind described
    cases described
    exact numbersEach_mapM (fun _ => each _ _) elementwise
  · obtain ⟨members, memberwise, described⟩ := ok_of_bind described
    cases described
    exact numbersMembers_mapM each memberwise

variable {heap : Heap}

/-- So are those of a value that is no table. -/
theorem numbers_scalar {levels currentDepth : Nat} {value : Value}
    (scalar : ∀ addr, value ≠ .table addr) {tree : Json Number}
    (described : jsonTree host cfg heap levels currentDepth height value = .ok tree) :
    tree.Numbers Number.IsFinite := by
  cases value with
  | table addr => exact absurd rfl (scalar addr)
  | number num => exact numbers_jsonNumberTree proper (by simpa only [jsonTree] using described)
  | lightuserdata pointer =>
      cases pointer <;> simp only [jsonTree] at described <;> cases described
      trivial
  | _ =>
      simp only [jsonTree] at described
      cases described <;> trivial

/-- All numbers of the tree are finite. -/
theorem numbers_jsonTree {levels currentDepth : Nat} {value : Value} {tree : Json Number}
    (described : jsonTree host cfg heap levels currentDepth height value = .ok tree) :
    tree.Numbers Number.IsFinite := by
  induction levels generalizing currentDepth height value tree with
  | zero =>
      by_cases isTable : ∃ addr, value = .table addr
      · obtain ⟨addr, rfl⟩ := isTable
        simp only [jsonTree] at described
        exact numbers_jsonTableTree (fun _ _ _ stopped => by cases stopped) described
      · exact numbers_scalar proper (not_exists.mp isTable) described
  | succ levels inductionHypothesis =>
      by_cases isTable : ∃ addr, value = .table addr
      · obtain ⟨addr, rfl⟩ := isTable
        simp only [jsonTree] at described
        exact numbers_jsonTableTree (fun _ _ _ => inductionHypothesis) described
      · exact numbers_scalar proper (not_exists.mp isTable) described

/-- The text of what a value describes spells it. -/
theorem spells_jsonText {levels currentDepth : Nat} {value : Value} {tree : Json Number}
    (described : jsonTree host cfg heap levels currentDepth height value = .ok tree) :
    Json.Spells jsonDialect (tree.map (jsonRounded cfg)) (jsonText cfg tree) :=
  Json.spells_print chars_jsonCharText (fun _ => number_jsonNumberText)
    (numbers_jsonTree proper described)

end Numbers

end ValkeyLuajit
