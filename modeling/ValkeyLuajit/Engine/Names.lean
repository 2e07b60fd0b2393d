import ValkeyLuajit.Function.Register
import ValkeyLuajit.Library.Block
import ValkeyLuajit.Library.Ledger
import ValkeyLuajit.Library.Trim

/-!
# The names of the engine

The configuration gives the engine up to four names, separated by commas. They are parsed
in a copy of the configured string, whose every read and write is checked here against the
bounds of the copy, and kept as module strings in an array.
-/

namespace ValkeyLuajit

open Lua

/-- `MAX_ENGINE_NAMES`. -/
def maxEngineNames : Nat := 4

/-- `DEFAULT_ENGINE_NAME`. -/
def defaultEngineName : Bytes := bytes "LUA"

/-- The static data about the names. A C string is given by the module string it is a part
of. -/
structure EngineNames where
  engineNames : List (Option ModuleString)
  engineNamesCstr : List (Option ModuleString)
  engineNamesCount : Nat
  strings : Ledger
deriving DecidableEq

/-- The static data as the module starts. -/
def EngineNames.initial : EngineNames :=
  ⟨List.replicate maxEngineNames none, List.replicate maxEngineNames none, 0, .blank⟩

/-- Write to a slot the array has. -/
def setSlot {α : Type} (slots : List α) (i : Nat) (value : α) : Option (List α) :=
  if i < slots.length then some (slots.set i value) else none

/-- The loop that frees the names from `i` on. There is no string to free in an empty slot. -/
def freeEngineNames : Nat → Nat → EngineNames → Option EngineNames
  | 0, _, names => some names
  | rounds + 1, i, names => do
      let slot ← names.engineNames[i]?
      let name ← slot
      let engineNames ← setSlot names.engineNames i none
      let engineNamesCstr ← setSlot names.engineNamesCstr i none
      freeEngineNames rounds (i + 1)
        { names with
          engineNames := engineNames, engineNamesCstr := engineNamesCstr
          strings := names.strings.release [name.id] }

/-- Free all names. -/
def clearEngineNames (names : EngineNames) : Option EngineNames := do
  let names ← freeEngineNames names.engineNamesCount 0 names
  some { names with engineNamesCount := 0 }

/-- Put a new string with this text behind the names there are. -/
def addEngineName (text : Bytes) (names : EngineNames) : Option EngineNames := do
  let name : ModuleString := ⟨names.strings.made, text⟩
  let engineNames ← setSlot names.engineNames names.engineNamesCount (some name)
  let engineNamesCstr ← setSlot names.engineNamesCstr names.engineNamesCount (some name)
  some ⟨engineNames, engineNamesCstr, names.engineNamesCount + 1, names.strings.make⟩

/-- What is trimmed around a name. -/
def isBlank (char : UInt8) : Bool := char ∈ bytes " \t"

/-- `while (*token == ' ' || *token == '\t') token++`. -/
def skipBlanks (copy : Block) : Nat → Int → Option Int
  | 0, _ => none
  | fuel + 1, token => do
      let char ← copy.load token
      if isBlank char then skipBlanks copy fuel (token + 1) else some token

/-- `while (end > token && (*end == ' ' || *end == '\t')) end--`. -/
def skipBlanksBack (copy : Block) (token : Int) : Nat → Int → Option Int
  | 0, _ => none
  | fuel + 1, stop =>
      if stop > token then do
        let char ← copy.load stop
        if isBlank char then skipBlanksBack copy token fuel (stop - 1) else some stop
      else some stop

/-- Trim the token in its place. -/
def trimToken (copy : Block) (token : Int) : Option (Int × Block) := do
  let token ← skipBlanks copy (copy.length + 1) token
  let length ← copy.strlen token
  let stop ← skipBlanksBack copy token (copy.length + 1) (token + length - 1)
  let copy ← copy.store (stop + 1) 0
  some (token, copy)

/-- The separator of the names. -/
def isComma (char : UInt8) : Bool := char == UInt8.ofNat ','.toNat

/-- The loop over the tokens, each found by `strtok_r` before it is tested. -/
def engineNamesLoop : Nat → Block → Int → EngineNames → Option EngineNames
  | 0, _, _, _ => none
  | fuel + 1, copy, saveptr, names => do
      let (token, copy, saveptr) ← copy.strtokR isComma saveptr
      match token with
      | none => some names
      | some token =>
          if names.engineNamesCount < maxEngineNames then do
            let (token, copy) ← trimToken copy token
            let name ← copy.string token
            let names ← if 0 < name.length then addEngineName name names else some names
            engineNamesLoop fuel copy saveptr names
          else some names

def engineNameSet (val : Bytes) (names : EngineNames) : Option EngineNames := do
  let copy := val ++ [0]
  let names ← clearEngineNames names
  engineNamesLoop (copy.length + 1) copy 0 names

def engineNameGet (names : EngineNames) : Option ModuleString := names.engineNames.head?.join

/-- What `ValkeyModule_OnLoad` does about the names: there is always one. -/
def loadEngineNames (names : EngineNames) : Option EngineNames :=
  if names.engineNamesCount = 0 then addEngineName defaultEngineName names else some names

/-- What the static data can become. -/
inductive EngineNames.Reachable : EngineNames → Prop
  | initial : Reachable .initial
  | set {names after : EngineNames} (val : Bytes) (before : Reachable names)
      (step : engineNameSet val names = some after) : Reachable after
  | load {names after : EngineNames} (before : Reachable names)
      (step : loadEngineNames names = some after) : Reachable after
  | unload {names after : EngineNames} (before : Reachable names)
      (step : clearEngineNames names = some after) : Reachable after

/-- The names a configured text gives. -/
def configuredNames (text : Bytes) : List Bytes :=
  (((text.splitOn (UInt8.ofNat ','.toNat)).map (trim isBlank)).filter (· ≠ [])).take
    maxEngineNames

/-- These strings are the names: they fill the first slots, and of all strings made they are
those that are held. -/
structure EngineNames.Installs (names : EngineNames) (strings : List ModuleString) : Prop where
  fits : strings.length ≤ maxEngineNames
  slots : names.engineNames =
    strings.map some ++ List.replicate (maxEngineNames - strings.length) none
  cstrs : names.engineNamesCstr = names.engineNames
  count : names.engineNamesCount = strings.length
  accounts : names.strings.Accounts (strings.map ModuleString.id)

section

variable {names : EngineNames} {strings : List ModuleString}

theorem EngineNames.installs_initial : EngineNames.initial.Installs [] where
  fits := Nat.zero_le _
  slots := rfl
  cstrs := rfl
  count := rfl
  accounts := .blank

theorem setSlot_append {α : Type} {front back : List α} {old : α} (value : α) :
    setSlot (front ++ old :: back) front.length value = some (front ++ value :: back) := by
  rw [setSlot, if_pos (by simp), List.set_append_right _ _ (Nat.le_refl _), Nat.sub_self]
  rfl

/-- Each name is freed, and its slot is empty then. -/
theorem freeEngineNames_eq {i free : Nat} (cstrs : names.engineNamesCstr = names.engineNames)
    (slots : names.engineNames =
      List.replicate i none ++ (strings.map some ++ List.replicate free none)) :
    freeEngineNames strings.length i names = some
      { names with
        engineNames := List.replicate (i + strings.length + free) none
        engineNamesCstr := List.replicate (i + strings.length + free) none
        strings := names.strings.release (strings.map ModuleString.id) } := by
  induction strings generalizing i names with
  | nil =>
      obtain ⟨engineNames, engineNamesCstr, count, ledger⟩ := names
      obtain rfl : engineNamesCstr = engineNames := cstrs
      simp only at slots
      simp [freeEngineNames, slots, Ledger.release, List.replicate_append_replicate]
  | cons name strings inductionHypothesis =>
      have slots' : names.engineNames =
          List.replicate i none ++ some name :: (strings.map some ++ List.replicate free none) := slots
      have here : names.engineNames[i]? = some (some name) := by
        rw [slots', List.getElem?_append_right (by simp)]
        simp
      have cleared := @setSlot_append _ (List.replicate i (none : Option ModuleString))
        (strings.map some ++ List.replicate free none) (some name) none
      rw [List.length_replicate, ← slots'] at cleared
      have grown : List.replicate i (none : Option ModuleString) ++
          none :: (strings.map some ++ List.replicate free none) =
            List.replicate (i + 1) none ++ (strings.map some ++ List.replicate free none) := by
        rw [List.replicate_succ', List.append_assoc]
        rfl
      have rest := @inductionHypothesis
        { names with
          engineNames := List.replicate (i + 1) none ++ (strings.map some ++ List.replicate free none)
          engineNamesCstr :=
            List.replicate (i + 1) none ++ (strings.map some ++ List.replicate free none)
          strings := names.strings.release [name.id] } (i + 1) rfl rfl
      have total : i + 1 + strings.length + free = i + (name :: strings).length + free := by
        rw [List.length_cons]
        omega
      rw [total] at rest
      simp only [List.length_cons, freeEngineNames, here, cstrs, cleared, grown,
        Option.bind_eq_bind, Option.bind_some]
      simpa [Ledger.release] using rest

/-- Freeing all names leaves none, and frees each once. -/
theorem clearEngineNames_eq (installs : names.Installs strings) :
    ∃ after, clearEngineNames names = some after ∧ after.Installs [] ∧
      after.strings.made = names.strings.made ∧
      after.strings.released = names.strings.released ++ strings.map ModuleString.id := by
  have freed := freeEngineNames_eq (i := 0) installs.cstrs installs.slots
  have whole : 0 + strings.length + (maxEngineNames - strings.length) = maxEngineNames := by
    have fits := installs.fits
    omega
  rw [whole, ← installs.count] at freed
  refine ⟨⟨List.replicate maxEngineNames none, List.replicate maxEngineNames none, 0,
    names.strings.release (strings.map ModuleString.id)⟩, ?_,
    ⟨Nat.zero_le _, rfl, rfl, rfl, ?_⟩, rfl, rfl⟩
  · rw [clearEngineNames, freed]
    rfl
  apply Ledger.Accounts.release
  rw [List.map_nil, List.append_nil]
  exact installs.accounts

/-- A new string becomes the last name, if there is room. -/
theorem addEngineName_eq (installs : names.Installs strings) (room : strings.length < maxEngineNames)
    (text : Bytes) :
    ∃ after, addEngineName text names = some after ∧
      after.Installs (strings ++ [⟨names.strings.made, text⟩]) ∧
      after.strings.released = names.strings.released := by
  obtain ⟨engineNames, engineNamesCstr, count, ledger⟩ := names
  obtain ⟨fits, slots, cstrs, counted, accounts⟩ := installs
  simp only at slots cstrs counted accounts
  subst engineNamesCstr count
  have split : List.replicate (maxEngineNames - strings.length) (none : Option ModuleString) =
      none :: List.replicate (maxEngineNames - (strings.length + 1)) none := by
    rw [← List.replicate_succ]
    congr 1
    omega
  have added := @setSlot_append _ (strings.map some)
    (List.replicate (maxEngineNames - (strings.length + 1)) none) none
    (some (⟨ledger.made, text⟩ : ModuleString))
  rw [← split, ← slots, List.length_map] at added
  have length : (strings ++ [(⟨ledger.made, text⟩ : ModuleString)]).length = strings.length + 1 := by
    simp
  refine ⟨⟨strings.map some ++ some ⟨ledger.made, text⟩ ::
      List.replicate (maxEngineNames - (strings.length + 1)) none,
    strings.map some ++ some ⟨ledger.made, text⟩ ::
      List.replicate (maxEngineNames - (strings.length + 1)) none, strings.length + 1,
    ledger.make⟩, ?_, ⟨length.trans_le room, by simp, rfl, length.symm, ?_⟩, rfl⟩
  · simp only [addEngineName, added, Option.bind_eq_bind, Option.bind_some]
  · simp only [List.map_append, List.map_cons, List.map_nil]
    exact accounts.make.perm (List.perm_append_singleton _ _).symm

end

section

variable {copy : Block} {place : Nat} {text rest : Bytes}

/-- The first loop stops in front of the first character that is not trimmed. -/
theorem skipBlanks_eq {fuel : Nat} (holds : Block.Holds copy place text)
    (enough : text.length < fuel) :
    skipBlanks copy fuel place = some ((place + (text.takeWhile isBlank).length : Nat) : Int) := by
  induction fuel generalizing place text with
  | zero => exact absurd enough (Nat.not_lt_zero _)
  | succ fuel inductionHypothesis =>
      rw [skipBlanks, holds.load_eq]
      cases text with
      | nil => rfl
      | cons char text =>
          by_cases blank : isBlank char
          · have behind : Block.Holds copy (place + [char].length) text := holds.skip
            have next := inductionHypothesis behind (Nat.lt_of_succ_lt_succ enough)
            rw [List.takeWhile_cons_of_pos blank, List.length_cons]
            simp only [List.head?_cons, Option.getD_some, Option.bind_eq_bind, Option.bind_some,
              blank, if_true]
            rw [List.length_singleton, Int.natCast_add, Int.natCast_one] at next
            rw [next, Nat.add_assoc, Nat.add_comm 1]
          · rw [List.takeWhile_cons_of_neg blank]
            simp [blank]

/-- The second loop stops at the last character that is not trimmed, or in front of the token
when nothing is left of it. -/
theorem skipBlanksBack_eq {fuel : Nat} (holds : Block.Holds copy place (text ++ rest))
    (start : ∀ char, text.head? = some char → ¬ isBlank char) (enough : text.length < fuel) :
    skipBlanksBack copy place fuel ((place : Int) + text.length - 1) =
      some ((place : Int) + (text.rdropWhile isBlank).length - 1) := by
  induction text using List.reverseRecOn generalizing fuel rest with
  | nil =>
      obtain ⟨fuel, rfl⟩ := Nat.exists_eq_add_one_of_ne_zero (Nat.ne_of_gt enough)
      rw [skipBlanksBack, if_neg (by simp only [List.length_nil]; omega)]
      rfl
  | append_singleton text char inductionHypothesis =>
      obtain ⟨fuel, rfl⟩ := Nat.exists_eq_add_one_of_ne_zero (Nat.ne_of_gt (Nat.zero_lt_of_lt enough))
      have last : (place : Int) + (text ++ [char]).length - 1 = ((place + text.length : Nat) : Int) := by
        rw [List.length_append, List.length_singleton]
        omega
      rw [List.append_assoc] at holds
      rw [last, skipBlanksBack, holds.skip.load_eq, List.rdropWhile_concat]
      by_cases only : text = []
      · subst only
        have stays : ¬ isBlank char := start char rfl
        rw [if_neg (by simp), if_neg stays]
        simp
      · have several : ((place + text.length : Nat) : Int) > place := by
          have positive := List.length_pos_iff.mpr only
          omega
        rw [if_pos several]
        by_cases blank : isBlank char
        · have start' : ∀ first, text.head? = some first → ¬ isBlank first := by
            intro first isFirst
            apply start
            rw [List.head?_append, isFirst]
            rfl
          rw [if_pos blank, ← inductionHypothesis holds start' (by simp at enough; omega)]
          simp [blank]
        · rw [if_neg blank, ← last]
          simp [blank]

/-- What is left of a token is trimmed, and what lies behind it stays. -/
theorem trimToken_eq (holds : Block.Holds copy place text) :
    ∃ start after, trimToken copy place = some (((start : Nat) : Int), after) ∧
      Block.Holds after start (trim isBlank text) ∧
      (∀ later other, Block.Holds copy later other → place + text.length < later →
        Block.Holds after later other) ∧ Block.Holds after (place + text.length) [] := by
  let start := place + (text.takeWhile isBlank).length
  have parts := List.takeWhile_append_dropWhile (p := isBlank) (l := text)
  have there : Block.Holds copy start (text.dropWhile isBlank) := by
    apply Block.Holds.skip
    rwa [parts]
  obtain ⟨dropped, kept⟩ := List.rdropWhile_prefix isBlank (text.dropWhile isBlank)
  have first : ∀ char, (text.dropWhile isBlank).head? = some char → ¬ isBlank char := by
    intro char isFirst
    have unlike := List.head?_dropWhile_not isBlank text
    rw [isFirst] at unlike
    simpa using unlike
  have inside := holds.inside
  have lengths : (text.takeWhile isBlank).length + (text.dropWhile isBlank).length = text.length := by
    rw [← List.length_append, parts]
  have back := @skipBlanksBack_eq copy start _ [] (copy.length + 1) (by rwa [List.append_nil]) first
    (by omega)
  have length := there.strlen_eq
  rw [← kept] at there
  obtain ⟨after, stored, cut, frame⟩ := there.cut
  have total : (trim isBlank text).length + dropped.length = (text.dropWhile isBlank).length := by
    rw [← List.length_append]
    exact congrArg List.length kept
  refine ⟨start, after, ?_, cut, ?_, ?_⟩
  · have stop : (start : Int) + ((text.dropWhile isBlank).rdropWhile isBlank).length - 1 + 1 =
        ((start + ((text.dropWhile isBlank).rdropWhile isBlank).length : Nat) : Int) := by omega
    simp only [trimToken, skipBlanks_eq holds (Nat.lt_succ_of_lt (Nat.lt_of_le_of_lt
      (Nat.le_add_left _ _) inside)), Option.bind_eq_bind, Option.bind_some]
    change (copy.strlen start).bind _ = _
    rw [length, Option.bind_some]
    change (skipBlanksBack copy start _ _).bind _ = _
    rw [back, Option.bind_some, stop, stored, Option.bind_some]
  · exact fun later other holds behind => frame later other holds (by
      change start + (trim isBlank text).length < later
      omega)
  · have ended : Block.Holds copy (place + text.length) [] := by
      apply Block.Holds.skip
      rwa [List.append_nil]
    by_cases whole : dropped = []
    · have here : Block.Holds after (start + (trim isBlank text).length) [] := by
        apply Block.Holds.skip
        rw [List.append_nil]
        exact cut
      have stop : place + text.length = start + (trim isBlank text).length := by
        simp only [whole, List.length_nil] at total
        omega
      rwa [stop]
    · refine frame _ _ ended ?_
      have positive := List.length_pos_iff.mpr whole
      change start + (trim isBlank text).length < place + text.length
      omega

/-- The names that the pieces of a text are. -/
def pieceNames (text : Bytes) : List Bytes :=
  ((Block.pieces isComma text).map (trim isBlank)).filter (· ≠ [])

/-- The loop adds the names of the pieces as long as there is room. -/
theorem engineNamesLoop_eq {fuel saveptr : Nat} {names : EngineNames} {strings : List ModuleString}
    (holds : Block.Holds copy saveptr text) (enough : text.length < fuel)
    (installs : names.Installs strings) :
    ∃ after added, engineNamesLoop fuel copy saveptr names = some after ∧
      after.Installs (strings ++ added) ∧
      added.map ModuleString.text = (pieceNames text).take (maxEngineNames - strings.length) ∧
      after.strings.released = names.strings.released := by
  induction fuel generalizing copy saveptr text names strings with
  | zero => exact absurd enough (Nat.not_lt_zero _)
  | succ fuel inductionHypothesis =>
      rcases @Block.Holds.strtokR_cases _ _ _ isComma holds with
        ⟨none, found⟩ | ⟨token, more, cutOff, start, next, split, found, here, later, shorter, apart⟩
      · refine ⟨names, [], ?_, by rwa [List.append_nil], by simp [pieceNames, none], rfl⟩
        simp only [engineNamesLoop, found, Option.bind_eq_bind, Option.bind_some]
      · simp only [engineNamesLoop, found, Option.bind_eq_bind, Option.bind_some]
        by_cases room : strings.length < maxEngineNames
        · rw [installs.count, if_pos room]
          obtain ⟨place, trimmed, trims, name, frame, ended⟩ := trimToken_eq here
          have left : Block.Holds trimmed next more := by
            rcases apart with behind | ⟨same, rfl⟩
            · exact frame next more later behind
            · rwa [← same]
          have enough' : more.length < fuel := by omega
          rw [trims, Option.bind_some, name.string_eq, Option.bind_some]
          by_cases blank : trim isBlank token = []
          · obtain ⟨after, added, done, installed, texts, released⟩ :=
              inductionHypothesis left enough' installs
            refine ⟨after, added, ?_, installed, ?_, released⟩
            · rw [blank]
              exact done
            · rw [texts, pieceNames, pieceNames, split]
              simp [blank]
          · have positive : 0 < (trim isBlank token).length := List.length_pos_iff.mpr blank
            obtain ⟨grown, add, installs', kept⟩ := addEngineName_eq installs room (trim isBlank token)
            obtain ⟨after, added, done, installed, texts, released⟩ :=
              inductionHypothesis left enough' installs'
            refine ⟨after, ⟨names.strings.made, trim isBlank token⟩ :: added, ?_, ?_, ?_, ?_⟩
            · rw [if_pos positive, add]
              exact done
            · rwa [List.append_cons]
            · have slots : maxEngineNames - strings.length =
                  maxEngineNames - (strings.length + 1) + 1 := by omega
              rw [List.length_append, List.length_singleton] at texts
              rw [List.map_cons, texts, pieceNames, pieceNames, split, slots]
              simp [blank]
            · rw [released, kept]
        · rw [installs.count, if_neg room]
          refine ⟨names, [], rfl, by rwa [List.append_nil], ?_, rfl⟩
          have full : maxEngineNames - strings.length = 0 := by omega
          rw [full, List.take_zero]
          rfl

end

/-- Empty fields make no difference to the names. -/
theorem pieceNames_eq (text : Bytes) :
    (pieceNames text).take maxEngineNames = configuredNames text := by
  have split : text.splitOn (UInt8.ofNat ','.toNat) = text.splitOnP isComma := rfl
  rw [configuredNames, split, pieceNames, Block.pieces]
  congr 1
  induction text.splitOnP isComma with
  | nil => rfl
  | cons field fields inductionHypothesis =>
      by_cases empty : field = []
      · simpa [empty] using inductionHypothesis
      · rw [List.filter_cons_of_pos (by simpa using empty), List.map_cons, List.map_cons,
          List.filter_cons, List.filter_cons, inductionHypothesis]

/-- A name that was configured, configured by itself, is the only name. -/
theorem configuredNames_self {text name : Bytes} (terminated : 0 ∉ text)
    (member : name ∈ configuredNames text) : configuredNames (cString name) = [name] := by
  rw [← pieceNames_eq] at member
  obtain ⟨listed, nonempty⟩ := List.mem_filter.mp (List.mem_of_mem_take member)
  obtain ⟨token, piece, rfl⟩ := List.mem_map.mp listed
  obtain ⟨-, chars⟩ := Block.mem_pieces piece
  have whole : cString (trim isBlank token) = trim isBlank token :=
    cString_eq_self_iff.mpr fun zero => terminated (chars 0 (mem_of_mem_trim zero)).2
  have unsplit : Block.pieces isComma (trim isBlank token) = [trim isBlank token] :=
    Block.pieces_single (by simpa using nonempty) fun char inside =>
      (chars char (mem_of_mem_trim inside)).1
  rw [whole, ← pieceNames_eq, pieceNames, unsplit, List.map_cons, trim_trim, List.map_nil,
    List.filter_cons_of_pos (by simpa using nonempty)]
  rfl

section

variable {names after : EngineNames} {strings : List ModuleString}

/-- The texts of the names. -/
def EngineNames.list (names : EngineNames) : List Bytes :=
  (names.engineNames.filterMap id).map ModuleString.text

theorem EngineNames.Installs.list_eq (installs : names.Installs strings) :
    names.list = strings.map ModuleString.text := by
  rw [EngineNames.list, installs.slots, List.filterMap_append]
  simp [List.filterMap_map]

/-- A name that is installed was not freed. -/
theorem EngineNames.Installs.held {name : ModuleString} (installs : names.Installs strings)
    (member : name ∈ strings) : name.id ∉ names.strings.released := fun released =>
  List.disjoint_of_nodup_append installs.accounts.nodup released (List.mem_map_of_mem member)

/-- Setting the names frees those there were and installs those configured. -/
theorem engineNameSet_eq (installs : names.Installs strings) (val : Bytes) :
    ∃ after added, engineNameSet val names = some after ∧ after.Installs added ∧
      added.map ModuleString.text = configuredNames (cString val) ∧
      after.strings.released = names.strings.released ++ strings.map ModuleString.id := by
  obtain ⟨cleared, clear, empty, -, released⟩ := clearEngineNames_eq installs
  have copied : Block.Holds (val ++ [0]) (0 : Nat) (cString val) := Block.holds_append_zero val
  have enough : (cString val).length < (val ++ [0]).length + 1 := by
    have shorter := (List.takeWhile_prefix (l := val) (· ≠ 0)).length_le
    rw [List.length_append, List.length_singleton]
    exact Nat.lt_of_le_of_lt shorter (by omega)
  obtain ⟨after, added, done, installed, texts, kept⟩ := engineNamesLoop_eq copied enough empty
  refine ⟨after, added, ?_, installed, ?_, kept.trans released⟩
  · rw [engineNameSet, clear]
    exact done
  · rw [texts, ← pieceNames_eq]
    rfl

/-- There are always names installed, or none. -/
theorem EngineNames.Reachable.installs (reachable : names.Reachable) :
    ∃ strings, names.Installs strings := by
  induction reachable with
  | initial => exact ⟨[], installs_initial⟩
  | set val before step inductionHypothesis =>
      obtain ⟨strings, installs⟩ := inductionHypothesis
      obtain ⟨after, added, done, installed, -⟩ := engineNameSet_eq installs val
      rw [done] at step
      cases step
      exact ⟨added, installed⟩
  | load before step inductionHypothesis =>
      obtain ⟨strings, installs⟩ := inductionHypothesis
      rw [loadEngineNames] at step
      split at step
      · next none =>
          obtain rfl : strings = [] := by
            rw [← List.length_eq_zero_iff, ← installs.count]
            exact none
          obtain ⟨after, done, installed, -⟩ :=
            addEngineName_eq installs (by decide) defaultEngineName
          rw [done] at step
          cases step
          exact ⟨_, installed⟩
      · cases step
        exact ⟨strings, installs⟩
  | unload before step inductionHypothesis =>
      obtain ⟨strings, installs⟩ := inductionHypothesis
      obtain ⟨after, done, installed, -⟩ := clearEngineNames_eq installs
      rw [done] at step
      cases step
      exact ⟨[], installed⟩

/-- `engineNameSet` stays inside its copy of the configured string. It installs the first
four fields that are not blank, in order, and frees each name there was exactly once. -/
theorem engineNameSet_installs (reachable : names.Reachable) (val : Bytes) :
    ∃ strings after added, names.Installs strings ∧ engineNameSet val names = some after ∧
      after.Installs added ∧ added.map ModuleString.text = configuredNames (cString val) ∧
      after.strings.released = names.strings.released ++ strings.map ModuleString.id ∧
      ∀ name ∈ strings, after.strings.released.count name.id = 1 := by
  obtain ⟨strings, installs⟩ := reachable.installs
  obtain ⟨after, added, done, installed, texts, released⟩ := engineNameSet_eq installs val
  refine ⟨strings, after, added, installs, done, installed, texts, released, fun name member => ?_⟩
  apply List.count_eq_one_of_mem
  · exact (List.nodup_append.mp installed.accounts.nodup).1
  · rw [released]
    exact List.mem_append_right _ (List.mem_map_of_mem member)

/-- Blank fields are skipped, and the fifth name is one too many. -/
theorem padded_names_installed : ∃ strings after added, EngineNames.initial.Installs strings ∧
    engineNameSet (bytes "lua,, \tluajit ,\t,a b,foobar,fifth") .initial = some after ∧
      after.Installs added ∧ added.map ModuleString.text =
        configuredNames (cString (bytes "lua,, \tluajit ,\t,a b,foobar,fifth")) ∧
      after.strings.released =
        EngineNames.initial.strings.released ++ strings.map ModuleString.id ∧
      ∀ name ∈ strings, after.strings.released.count name.id = 1 :=
  engineNameSet_installs .initial _

example : configuredNames (bytes "lua,, \tluajit ,\t,a b,foobar,fifth") =
    [bytes "lua", bytes "luajit", bytes "a b", bytes "foobar"] := by decide +kernel

/-- After this setting, reading the configuration gives a string that is still there, and
setting that string installs the same names. -/
def SurvivesRewrite (val : Bytes) (names : EngineNames) : Prop :=
  ∃ after, engineNameSet val names = some after ∧
    ∃ string, engineNameGet after = some string ∧ string.id ∉ after.strings.released ∧
      ∃ again, engineNameSet string.text after = some again ∧ again.list = after.list

/-- The configuration survives a rewrite exactly when it has one name. -/
theorem survivesRewrite_iff (reachable : names.Reachable) (val : Bytes) :
    SurvivesRewrite val names ↔ (configuredNames (cString val)).length = 1 := by
  obtain ⟨strings, installs⟩ := reachable.installs
  obtain ⟨after, added, done, installed, texts, -⟩ := engineNameSet_eq installs val
  have terminated : 0 ∉ cString val := (Block.holds_append_zero val).1
  cases added with
  | nil =>
      have none : engineNameGet after = none := by
        rw [engineNameGet, installed.slots]
        rfl
      refine iff_of_false ?_ (by simp [← texts])
      rintro ⟨after', done', string, got, -⟩
      rw [done] at done'
      cases done'
      rw [none] at got
      cases got
  | cons first others =>
      have got : engineNameGet after = some first := by
        rw [engineNameGet, installed.slots]
        rfl
      have only : configuredNames (cString first.text) = [first.text] := by
        apply configuredNames_self terminated
        rw [← texts]
        exact List.mem_cons_self
      obtain ⟨again, added', done', installed', texts', -⟩ := engineNameSet_eq installed first.text
      rw [only] at texts'
      have same : again.list = after.list ↔ others = [] := by
        rw [installed.list_eq, installed'.list_eq, texts']
        cases others <;> simp
      rw [← texts]
      constructor
      · rintro ⟨after'', done'', string, got', -, again', done''', lists⟩
        rw [done] at done''
        cases done''
        rw [got] at got'
        cases got'
        rw [done'] at done'''
        cases done'''
        simp [same.mp lists]
      · intro one
        have none : others = [] := by simpa using one
        exact ⟨after, done, first, got, installed.held List.mem_cons_self, again, done',
          same.mpr none⟩

/-- Of several names all but the first are lost. -/
theorem several_names_lost :
    ¬ ∀ val, SurvivesRewrite val .initial := by
  intro survives
  have one := (survivesRewrite_iff .initial _).mp (survives (bytes "lua,luajit,foobar"))
  exact absurd one (by decide +kernel)

/-- The default name is not lost. -/
theorem default_name_survives : SurvivesRewrite defaultEngineName .initial :=
  (survivesRewrite_iff .initial _).mpr (by decide +kernel)

end

end ValkeyLuajit
