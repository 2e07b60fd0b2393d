import ValkeyLuajit.Engine.Lifetime
import ValkeyLuajit.Engine.Users
import ValkeyLuajit.Library.Ledger

/-!
# Who owns the Lua states

The engine's dictionaries hold pointers: to the record of a user, which points to his
two Lua states, and to libraries. A reset moves these pointers into an array, which
holds either the user's own record or a record made for the purpose, and the array is
destroyed before the reset returns or by a callback, which the server runs when it
likes. Lua states, records and libraries go by the numbers they get when they are made; the
state a library is compiled in is closed by the compilation itself.
-/

namespace ValkeyLuajit

open Lua

/-- `luajitPerUserState`, with the states it points to; none is NULL. -/
structure UserRecord where
  record : Nat
  evalLua : Option Nat
  functionLua : Option Nat
deriving DecidableEq

/-- The states of a record, in the order in which they are closed. -/
def UserRecord.states (us : UserRecord) : List Nat := us.evalLua.toList ++ us.functionLua.toList

@[simp] theorem UserRecord.states_mk (record : Nat) (evalLua functionLua : Option Nat) :
    (UserRecord.mk record evalLua functionLua).states = evalLua.toList ++ functionLua.toList := rfl

/-- The states a reset takes from a user. -/
def UserRecord.taken (type : SubsystemType) (us : UserRecord) : List Nat :=
  match type with
  | .all => us.states
  | .eval => us.evalLua.toList
  | .function => us.functionLua.toList

/-- The record with another state in the place of the one that is taken. -/
def UserRecord.renew (type : SubsystemType) (us : UserRecord) (lua : Nat) : UserRecord :=
  if type = .eval then { us with evalLua := some lua } else { us with functionLua := some lua }

/-- Lua states and records. -/
structure StateLedgers where
  states : Ledger
  records : Ledger
deriving DecidableEq

/-- What the engine's pointers refer to. -/
structure Estate where
  users : AList fun _ : Bytes => UserRecord
  libraries : AList fun _ : Nat => Nat
  compileLua : Option Nat
  /-- The arrays of the callbacks that the server has not run yet. -/
  pending : List (List UserRecord)
  ledgers : StateLedgers
  libraryLedger : Ledger

/-- `luaL_newstate`. -/
def StateLedgers.newState (ledgers : StateLedgers) : StateLedgers :=
  { ledgers with states := ledgers.states.make }

/-- `ValkeyModule_Calloc` of a record. -/
def StateLedgers.newRecord (ledgers : StateLedgers) : StateLedgers :=
  { ledgers with records := ledgers.records.make }

/-- `destroyPerUserState`: the states that are there are closed and the record is freed. -/
def StateLedgers.destroyPerUserState (ledgers : StateLedgers) (us : UserRecord) : StateLedgers where
  states := ledgers.states.release us.states
  records := ledgers.records.release [us.record]

/-- The loop of `resetLuaContextAsync`, and of a reset that does not wait for it. -/
def StateLedgers.destroyAll (ledgers : StateLedgers) (old : List UserRecord) : StateLedgers :=
  old.foldl destroyPerUserState ledgers

/-- The body of the loop of a reset: what stays in the dictionary, what goes into the
array, and what was made for it. -/
def renewRecord (type : SubsystemType) (us : UserRecord) (ledgers : StateLedgers) :
    UserRecord × UserRecord × StateLedgers :=
  match type with
  | .all => (us, us, ledgers)
  | .eval =>
      ({ us with evalLua := some ledgers.states.made },
        ⟨ledgers.records.made, us.evalLua, none⟩, ledgers.newRecord.newState)
  | .function =>
      ({ us with functionLua := some ledgers.states.made },
        ⟨ledgers.records.made, none, us.functionLua⟩, ledgers.newRecord.newState)

/-- The loop of a reset over the users. -/
def renewRecords (type : SubsystemType) : List (Sigma fun _ : Bytes => UserRecord) →
    StateLedgers → List (Sigma fun _ : Bytes => UserRecord) × List UserRecord × StateLedgers
  | [], ledgers => ([], [], ledgers)
  | entry :: rest, ledgers =>
      let (left, old, ledgers) := renewRecord type entry.2 ledgers
      let (entries, olds, ledgers) := renewRecords type rest ledgers
      (⟨entry.1, left⟩ :: entries, old :: olds, ledgers)

theorem renewRecords_cons (type : SubsystemType) (entry : Sigma fun _ : Bytes => UserRecord)
    (rest : List (Sigma fun _ : Bytes => UserRecord)) (ledgers : StateLedgers) :
    renewRecords type (entry :: rest) ledgers =
      (⟨entry.1, (renewRecord type entry.2 ledgers).1⟩ ::
          (renewRecords type rest (renewRecord type entry.2 ledgers).2.2).1,
        (renewRecord type entry.2 ledgers).2.1 ::
          (renewRecords type rest (renewRecord type entry.2 ledgers).2.2).2.1,
        (renewRecords type rest (renewRecord type entry.2 ledgers).2.2).2.2) := rfl

/-- The loop leaves the keys alone. -/
theorem renewRecords_keys (type : SubsystemType) (entries : List (Sigma fun _ : Bytes => UserRecord))
    (ledgers : StateLedgers) : (renewRecords type entries ledgers).1.keys = entries.keys := by
  induction entries generalizing ledgers with
  | nil => rfl
  | cons entry rest inductionHypothesis =>
      simp only [renewRecords, List.keys_cons, inductionHypothesis]

namespace Estate

/-- `createEngineContext`: there is a state to compile in. -/
def initial : Estate where
  users := ∅
  libraries := ∅
  compileLua := some 0
  pending := []
  ledgers := ⟨Ledger.blank.make, .blank⟩
  libraryLedger := .blank

/-- `getOrCreateUserState`. -/
def getOrCreateUserState (estate : Estate) (username : Bytes) : Estate :=
  if cString username ∈ estate.users then estate
  else
    { estate with
      users := estate.users.insert (cString username)
        ⟨estate.ledgers.records.made, some estate.ledgers.states.made,
          some (estate.ledgers.states.made + 1)⟩
      ledgers := estate.ledgers.newRecord.newState.newState }

/-- A library is made and entered into the dictionary, whose entry stays if there is one. -/
def addLibrary (estate : Estate) (libId : Nat) : Estate :=
  { estate with
    libraries := estate.libraries.insertNew libId estate.libraryLedger.made
    libraryLedger := estate.libraryLedger.make }

/-- A library is freed and deleted from the dictionary. -/
def freeLibrary (estate : Estate) (libId : Nat) : Estate :=
  { estate with
    libraries := estate.libraries.erase libId
    libraryLedger := estate.libraryLedger.release (estate.libraries.lookup libId).toList }

/-- The first part of a reset: the libraries are freed and the dictionary is replaced. -/
def resetLibraries (estate : Estate) (type : SubsystemType) : Estate :=
  if type = .function ∨ type = .all then
    { estate with
      libraries := ∅
      libraryLedger := estate.libraryLedger.release (estate.libraries.entries.map Sigma.snd) }
  else estate

/-- The second part: the users' states are put aside, and the dictionary is replaced
when whole records go. -/
def takeStates (estate : Estate) (type : SubsystemType) : List UserRecord × Estate :=
  let renewed := renewRecords type estate.users.entries estate.ledgers
  (renewed.2.1,
    { estate with
      users := if type = .all then ∅
        else ⟨renewed.1, by
          rw [List.NodupKeys, renewRecords_keys]
          exact estate.users.nodupKeys⟩
      ledgers := renewed.2.2 })

/-- The third part: the array is handed to a callback or destroyed. -/
def dispose (estate : Estate) (async : Bool) (old : List UserRecord) : Estate :=
  if async ∧ old ≠ [] then { estate with pending := estate.pending ++ [old] }
  else { estate with ledgers := estate.ledgers.destroyAll old }

/-- The last part: another state to compile in. -/
def renewCompileLua (estate : Estate) : Estate :=
  match estate.compileLua with
  | none => estate
  | some lua =>
      { estate with
        compileLua := some estate.ledgers.states.made
        ledgers := { estate.ledgers with states := (estate.ledgers.states.release [lua]).make } }

/-- `luajitEngineResetEnv`. -/
def resetEnv (estate : Estate) (type : SubsystemType) (async : Bool) : Estate :=
  let (old, taken) := (estate.resetLibraries type).takeStates type
  (taken.dispose async old).renewCompileLua

/-- `resetLuaContextAsync`: the server runs one of the callbacks it was handed. -/
def resetLuaContextAsync (estate : Estate) (index : Nat) : Estate :=
  { estate with
    pending := estate.pending.eraseIdx index
    ledgers := estate.ledgers.destroyAll (estate.pending.getD index []) }

/-- The Lua states in use: of the users, in arrays to be destroyed, and to compile in. -/
def heldStates (estate : Estate) : List Nat :=
  estate.users.entries.flatMap (fun entry => entry.2.states) ++
    (estate.pending.flatten.flatMap UserRecord.states ++ estate.compileLua.toList)

def heldRecords (estate : Estate) : List Nat :=
  estate.users.entries.map (fun entry => entry.2.record) ++
    estate.pending.flatten.map UserRecord.record

def heldLibraries (estate : Estate) : List Nat := estate.libraries.entries.map Sigma.snd

/-- Every Lua state, record and library ever made is in use, in an array that was put
aside, or was closed or freed: in one place and once. -/
structure Accounted (estate : Estate) (aside : List UserRecord) : Prop where
  states : estate.ledgers.states.Accounts (aside.flatMap UserRecord.states ++ estate.heldStates)
  records : estate.ledgers.records.Accounts (aside.map UserRecord.record ++ estate.heldRecords)
  libraries : estate.libraryLedger.Accounts estate.heldLibraries

theorem initial_accounted : initial.Accounted [] where
  states := Ledger.Accounts.blank.make
  records := .blank
  libraries := .blank

end Estate

section Loops

variable {ledgers : StateLedgers} {held : List Nat}

theorem StateLedgers.destroyAll_states (old : List UserRecord) :
    (ledgers.destroyAll old).states = ledgers.states.release (old.flatMap UserRecord.states) := by
  induction old generalizing ledgers with
  | nil => simp [destroyAll, Ledger.release]
  | cons us rest inductionHypothesis =>
      rw [destroyAll, List.foldl_cons]
      apply inductionHypothesis.trans
      simp [destroyPerUserState, Ledger.release]

theorem StateLedgers.destroyAll_records (old : List UserRecord) :
    (ledgers.destroyAll old).records = ledgers.records.release (old.map UserRecord.record) := by
  induction old generalizing ledgers with
  | nil => simp [destroyAll, Ledger.release]
  | cons us rest inductionHypothesis =>
      rw [destroyAll, List.foldl_cons]
      apply inductionHypothesis.trans
      simp [destroyPerUserState, Ledger.release]

/-- When whole records go, the loop makes nothing. -/
theorem renewRecords_all (entries : List (Sigma fun _ : Bytes => UserRecord)) :
    renewRecords .all entries ledgers = (entries, entries.map Sigma.snd, ledgers) := by
  induction entries with
  | nil => rfl
  | cons entry rest inductionHypothesis =>
      simp only [renewRecords, renewRecord, inductionHypothesis, List.map_cons]

/-- A state that is put aside is replaced by a new one, and nothing else changes hands. -/
theorem renewRecords_states {type : SubsystemType} (part : type ≠ .all)
    {entries : List (Sigma fun _ : Bytes => UserRecord)}
    (accounts : ledgers.states.Accounts (entries.flatMap (fun entry => entry.2.states) ++ held)) :
    (renewRecords type entries ledgers).2.2.states.Accounts
      ((renewRecords type entries ledgers).1.flatMap (fun entry => entry.2.states) ++
        ((renewRecords type entries ledgers).2.1.flatMap UserRecord.states ++ held)) := by
  induction entries generalizing ledgers held with
  | nil => exact accounts
  | cons entry rest inductionHypothesis =>
      obtain ⟨name, record, evalLua, functionLua⟩ := entry
      have made : ledgers.newRecord.newState.states.Accounts
          (rest.flatMap (fun entry => entry.2.states) ++
            ledgers.states.made :: (evalLua.toList ++ functionLua.toList ++ held)) := by
        apply accounts.make.perm
        apply List.perm_iff_count.mpr
        intro state
        simp [List.count_cons]
        omega
      rw [renewRecords_cons]
      cases type with
      | all => exact absurd rfl part
      | eval | function =>
          apply (inductionHypothesis made).perm
          apply List.perm_iff_count.mpr
          intro state
          simp [renewRecord, List.count_cons]
          omega

/-- The array holds new records. -/
theorem renewRecords_records {type : SubsystemType} (part : type ≠ .all)
    {entries : List (Sigma fun _ : Bytes => UserRecord)}
    (accounts : ledgers.records.Accounts (entries.map (fun entry => entry.2.record) ++ held)) :
    (renewRecords type entries ledgers).2.2.records.Accounts
      ((renewRecords type entries ledgers).1.map (fun entry => entry.2.record) ++
        ((renewRecords type entries ledgers).2.1.map UserRecord.record ++ held)) := by
  induction entries generalizing ledgers held with
  | nil => exact accounts
  | cons entry rest inductionHypothesis =>
      have made : ledgers.newRecord.newState.records.Accounts
          (rest.map (fun entry => entry.2.record) ++
            ledgers.records.made :: entry.2.record :: held) := by
        apply accounts.make.perm
        apply List.perm_iff_count.mpr
        intro record
        simp [List.count_cons]
        omega
      rw [renewRecords_cons]
      cases type with
      | all => exact absurd rfl part
      | eval | function =>
          apply (inductionHypothesis made).perm
          apply List.perm_iff_count.mpr
          intro record
          simp [renewRecord, List.count_cons]
          omega

/-- The array holds the states that are taken, in order. -/
theorem renewRecords_taken (type : SubsystemType)
    (entries : List (Sigma fun _ : Bytes => UserRecord)) :
    (renewRecords type entries ledgers).2.1.flatMap UserRecord.states =
      entries.flatMap fun entry => entry.2.taken type := by
  induction entries generalizing ledgers with
  | nil => rfl
  | cons entry rest inductionHypothesis =>
      rw [renewRecords_cons, List.flatMap_cons, List.flatMap_cons, inductionHypothesis]
      cases type with
      | all => rfl
      | eval | function => simp [renewRecord, UserRecord.taken]

theorem renewRecords_length (type : SubsystemType)
    (entries : List (Sigma fun _ : Bytes => UserRecord)) :
    (renewRecords type entries ledgers).2.1.length = entries.length := by
  induction entries generalizing ledgers with
  | nil => rfl
  | cons entry rest inductionHypothesis =>
      rw [renewRecords_cons, List.length_cons, List.length_cons, inductionHypothesis]

/-- Putting states aside closes none. -/
theorem renewRecords_released (type : SubsystemType)
    (entries : List (Sigma fun _ : Bytes => UserRecord)) :
    (renewRecords type entries ledgers).2.2.states.released = ledgers.states.released ∧
      ledgers.states.made ≤ (renewRecords type entries ledgers).2.2.states.made := by
  induction entries generalizing ledgers with
  | nil => exact ⟨rfl, Nat.le_refl _⟩
  | cons entry rest inductionHypothesis =>
      rw [renewRecords_cons]
      cases type with
      | all => exact inductionHypothesis
      | eval | function =>
          have later := @inductionHypothesis ledgers.newRecord.newState
          exact ⟨later.1, (Nat.le_succ _).trans later.2⟩

/-- Every user keeps his record, with one state in it renewed. -/
theorem renewRecords_lookup {type : SubsystemType} (part : type ≠ .all)
    {entries : List (Sigma fun _ : Bytes => UserRecord)} {username : Bytes} {us : UserRecord}
    (found : entries.dlookup username = some us) :
    ∃ lua, ledgers.states.made ≤ lua ∧
      (renewRecords type entries ledgers).1.dlookup username = some (us.renew type lua) := by
  induction entries generalizing ledgers with
  | nil => cases found
  | cons entry rest inductionHypothesis =>
      obtain ⟨name, other⟩ := entry
      rw [renewRecords_cons]
      by_cases same : username = name
      · subst same
        rw [List.dlookup_cons_eq] at found
        cases found
        refine ⟨ledgers.states.made, Nat.le_refl _, ?_⟩
        rw [List.dlookup_cons_eq]
        cases type with
        | all => exact absurd rfl part
        | eval | function => rfl
      · rw [List.dlookup_cons_ne _ _ same] at found
        obtain ⟨lua, fresh, renewed⟩ :=
          @inductionHypothesis (renewRecord type other ledgers).2.2 found
        refine ⟨lua, Nat.le_trans ?_ fresh, ?_⟩
        · cases type with
          | all => exact Nat.le_refl _
          | eval | function => exact Nat.le_succ _
        · rw [List.dlookup_cons_ne _ _ same]
          exact renewed

end Loops

namespace Estate

variable {estate : Estate} {aside : List UserRecord}

/-- A user's states are made with his record. -/
theorem Accounted.getOrCreateUserState (accounted : estate.Accounted []) (username : Bytes) :
    (estate.getOrCreateUserState username).Accounted [] := by
  unfold Estate.getOrCreateUserState
  split
  · exact accounted
  · rename_i absent
    constructor
    · apply accounted.states.make.make.perm
      apply List.perm_iff_count.mpr
      intro state
      simp [heldStates, AList.entries_insert_of_notMem absent, List.count_cons, Ledger.make,
        -AList.entries_insert]
      omega
    · apply accounted.records.make.perm
      simp [heldRecords, AList.entries_insert_of_notMem absent, -AList.entries_insert]
    · exact accounted.libraries

/-- A library gets an entry of its own. -/
theorem Accounted.addLibrary {libId : Nat} (accounted : estate.Accounted [])
    (absent : libId ∉ estate.libraries) : (estate.addLibrary libId).Accounted [] where
  states := accounted.states
  records := accounted.records
  libraries := by
    apply accounted.libraries.make.perm
    simp [heldLibraries, Estate.addLibrary, AList.insertNew, absent,
      AList.entries_insert_of_notMem absent, -AList.entries_insert]

/-- Deleting an entry frees its library. -/
theorem Accounted.freeLibrary (accounted : estate.Accounted []) (libId : Nat) :
    (estate.freeLibrary libId).Accounted [] where
  states := accounted.states
  records := accounted.records
  libraries := by
    apply Ledger.Accounts.release
    exact accounted.libraries.perm (estate.libraries.values_perm_erase libId)

/-- A reset frees every library it drops. -/
theorem Accounted.resetLibraries (accounted : estate.Accounted []) (type : SubsystemType) :
    (estate.resetLibraries type).Accounted [] := by
  unfold Estate.resetLibraries
  split
  · exact ⟨accounted.states, accounted.records, Ledger.Accounts.release
      (accounted.libraries.perm (by simp [heldLibraries]))⟩
  · exact accounted

/-- The states that are put aside are no longer those of the users. -/
theorem Accounted.takeStates (accounted : estate.Accounted []) (type : SubsystemType) :
    (estate.takeStates type).2.Accounted (estate.takeStates type).1 := by
  by_cases all : type = .all
  · subst all
    simp only [Estate.takeStates, renewRecords_all, if_pos]
    constructor
    · apply accounted.states.perm
      simp [heldStates, List.flatMap_map]
    · apply accounted.records.perm
      simp [heldRecords, Function.comp_def]
    · exact accounted.libraries
  · simp only [Estate.takeStates, if_neg all]
    constructor
    · apply (renewRecords_states all accounted.states).perm
      apply List.perm_iff_count.mpr
      intro state
      simp [heldStates]
      omega
    · apply (renewRecords_records all accounted.records).perm
      apply List.perm_iff_count.mpr
      intro record
      simp [heldRecords]
      omega
    · exact accounted.libraries

/-- The array is handed on or destroyed. -/
theorem Accounted.dispose (accounted : estate.Accounted aside) (async : Bool) :
    (estate.dispose async aside).Accounted [] := by
  unfold Estate.dispose
  split
  · constructor
    · apply accounted.states.perm
      apply List.perm_iff_count.mpr
      intro state
      simp [heldStates]
      omega
    · apply accounted.records.perm
      apply List.perm_iff_count.mpr
      intro record
      simp [heldRecords]
      omega
    · exact accounted.libraries
  · constructor
    · simp only [StateLedgers.destroyAll_states]
      exact accounted.states.release
    · simp only [StateLedgers.destroyAll_records]
      exact accounted.records.release
    · exact accounted.libraries

/-- The state to compile in is closed and replaced. -/
theorem Accounted.renewCompileLua (accounted : estate.Accounted []) :
    estate.renewCompileLua.Accounted [] := by
  unfold Estate.renewCompileLua
  split
  · exact accounted
  · rename_i lua present
    have released : (estate.ledgers.states.release [lua]).Accounts
        (estate.users.entries.flatMap (fun entry => entry.2.states) ++
          estate.pending.flatten.flatMap UserRecord.states) := by
      apply Ledger.Accounts.release
      apply accounted.states.perm
      apply List.perm_iff_count.mpr
      intro state
      simp [heldStates, present, List.count_cons]
      omega
    refine ⟨?_, accounted.records, accounted.libraries⟩
    apply released.make.perm
    apply List.perm_iff_count.mpr
    intro state
    simp [heldStates, List.count_cons, Ledger.release]
    omega

/-- A reset keeps the account. -/
theorem Accounted.resetEnv (accounted : estate.Accounted []) (type : SubsystemType) (async : Bool) :
    (estate.resetEnv type async).Accounted [] :=
  (((accounted.resetLibraries type).takeStates type).dispose async).renewCompileLua

/-- So does a callback. -/
theorem Accounted.resetLuaContextAsync {index : Nat} (accounted : estate.Accounted [])
    (present : index < estate.pending.length) :
    (estate.resetLuaContextAsync index).Accounted [] := by
  have split : estate.pending.Perm
      (estate.pending.getD index [] :: estate.pending.eraseIdx index) := by
    rw [List.getD_eq_getElem?_getD, List.getElem?_eq_getElem present, Option.getD_some]
    exact (List.getElem_cons_eraseIdx_perm present).symm
  unfold Estate.resetLuaContextAsync
  constructor
  · simp only [StateLedgers.destroyAll_states]
    apply Ledger.Accounts.release
    apply accounted.states.perm
    apply List.perm_iff_count.mpr
    intro state
    have counts := ((split.flatten).flatMap_right UserRecord.states).count_eq state
    simp [heldStates] at counts ⊢
    omega
  · simp only [StateLedgers.destroyAll_records]
    apply Ledger.Accounts.release
    apply accounted.records.perm
    apply List.perm_iff_count.mpr
    intro record
    have counts := ((split.flatten).map UserRecord.record).count_eq record
    simp [heldRecords] at counts ⊢
    omega
  · exact accounted.libraries

/-- What a reset does to whom. -/
structure Resets (type : SubsystemType) (async : Bool) (before after : Estate) : Prop where
  /-- The states that are taken go into the array of a callback when there are any and one
  is asked for, and are closed otherwise. -/
  taken : if async ∧ before.users.entries ≠ [] then
      (∃ array, after.pending = before.pending ++ [array] ∧
        array.flatMap UserRecord.states =
          before.users.entries.flatMap fun entry => entry.2.taken type) ∧
      after.ledgers.states.released =
        before.ledgers.states.released ++ before.compileLua.toList
    else after.pending = before.pending ∧
      after.ledgers.states.released = before.ledgers.states.released ++
        before.users.entries.flatMap (fun entry => entry.2.taken type) ++ before.compileLua.toList
  /-- No user has them any more. -/
  unreachable : ∀ lua ∈ before.users.entries.flatMap (fun entry => entry.2.taken type),
    lua ∉ after.users.entries.flatMap fun entry => entry.2.states
  /-- The user's entry goes, or keeps its record and its other state. -/
  users : ∀ username us, before.users.lookup username = some us →
    if type = .all then after.users.lookup username = none
    else ∃ lua, before.ledgers.states.made ≤ lua ∧
      after.users.lookup username = some (us.renew type lua)
  nobody : ∀ username, before.users.lookup username = none → after.users.lookup username = none
  libraries : if type = .eval then
      after.libraries = before.libraries ∧ after.libraryLedger = before.libraryLedger
    else after.libraries = ∅ ∧
      after.libraryLedger = before.libraryLedger.release before.heldLibraries

section Parts

variable (estate)

/-- Each part of a reset leaves the rest alone. -/
theorem resetLibraries_frame (type : SubsystemType) :
    (estate.resetLibraries type).users = estate.users ∧
      (estate.resetLibraries type).compileLua = estate.compileLua ∧
      (estate.resetLibraries type).pending = estate.pending ∧
      (estate.resetLibraries type).ledgers = estate.ledgers := by
  unfold Estate.resetLibraries
  split <;> exact ⟨rfl, rfl, rfl, rfl⟩

theorem dispose_frame (async : Bool) (old : List UserRecord) :
    (estate.dispose async old).users = estate.users ∧
      (estate.dispose async old).compileLua = estate.compileLua ∧
      (estate.dispose async old).libraries = estate.libraries ∧
      (estate.dispose async old).libraryLedger = estate.libraryLedger := by
  unfold Estate.dispose
  split <;> exact ⟨rfl, rfl, rfl, rfl⟩

theorem renewCompileLua_frame :
    estate.renewCompileLua.users = estate.users ∧
      estate.renewCompileLua.pending = estate.pending ∧
      estate.renewCompileLua.libraries = estate.libraries ∧
      estate.renewCompileLua.libraryLedger = estate.libraryLedger := by
  unfold Estate.renewCompileLua
  split <;> exact ⟨rfl, rfl, rfl, rfl⟩

/-- The array is handed to a callback, or its states are closed. -/
theorem dispose_states (async : Bool) (old : List UserRecord) :
    if async ∧ old ≠ [] then
      (estate.dispose async old).pending = estate.pending ++ [old] ∧
        (estate.dispose async old).ledgers.states.released = estate.ledgers.states.released
    else (estate.dispose async old).pending = estate.pending ∧
      (estate.dispose async old).ledgers.states.released =
        estate.ledgers.states.released ++ old.flatMap UserRecord.states := by
  unfold Estate.dispose
  split
  · exact ⟨rfl, rfl⟩
  · simp [StateLedgers.destroyAll_states, Ledger.release]

theorem renewCompileLua_released : estate.renewCompileLua.ledgers.states.released =
    estate.ledgers.states.released ++ estate.compileLua.toList := by
  unfold Estate.renewCompileLua
  split
  · rename_i missing
    simp [missing]
  · rename_i lua present
    simp [present, Ledger.make, Ledger.release]

end Parts

/-- What becomes of a user's entry. -/
theorem takeStates_lookup {estate : Estate} {type : SubsystemType} {username : Bytes}
    {us : UserRecord} (found : estate.users.lookup username = some us) :
    if type = .all then (estate.takeStates type).2.users.lookup username = none
    else ∃ lua, estate.ledgers.states.made ≤ lua ∧
      (estate.takeStates type).2.users.lookup username = some (us.renew type lua) := by
  split
  · rename_i all
    simp [takeStates, all]
  · rename_i part
    obtain ⟨lua, fresh, renewed⟩ := @renewRecords_lookup estate.ledgers type part _ _ _ found
    refine ⟨lua, fresh, ?_⟩
    simp only [takeStates, if_neg part]
    exact renewed

theorem takeStates_nobody {estate : Estate} {username : Bytes}
    (missing : estate.users.lookup username = none) (type : SubsystemType) :
    (estate.takeStates type).2.users.lookup username = none := by
  by_cases all : type = .all
  · simp [takeStates, all]
  · simp only [takeStates, if_neg all]
    apply List.dlookup_eq_none.mpr
    rw [renewRecords_keys]
    exact AList.lookup_eq_none.mp missing

/-- Where the states go that a reset takes. -/
theorem resetEnv_taken (estate : Estate) (type : SubsystemType) (async : Bool) :
    if async ∧ estate.users.entries ≠ [] then
      (∃ array, (estate.resetEnv type async).pending = estate.pending ++ [array] ∧
        array.flatMap UserRecord.states =
          estate.users.entries.flatMap fun entry => entry.2.taken type) ∧
      (estate.resetEnv type async).ledgers.states.released =
        estate.ledgers.states.released ++ estate.compileLua.toList
    else (estate.resetEnv type async).pending = estate.pending ∧
      (estate.resetEnv type async).ledgers.states.released = estate.ledgers.states.released ++
        estate.users.entries.flatMap (fun entry => entry.2.taken type) ++
          estate.compileLua.toList := by
  let prepared := estate.resetLibraries type
  let taken := prepared.takeStates type
  let disposed := taken.2.dispose async taken.1
  obtain ⟨users, compileLua, pending, ledgers⟩ := resetLibraries_frame estate type
  have array : taken.1.flatMap UserRecord.states =
      estate.users.entries.flatMap fun entry => entry.2.taken type := by
    rw [← users]
    exact renewRecords_taken type prepared.users.entries
  have some_iff : taken.1 ≠ [] ↔ estate.users.entries ≠ [] := by
    have length : taken.1.length = prepared.users.entries.length :=
      renewRecords_length type prepared.users.entries
    rw [← List.length_pos_iff, ← List.length_pos_iff, length, users]
  have closed : taken.2.ledgers.states.released = estate.ledgers.states.released := by
    rw [← ledgers]
    exact (renewRecords_released type prepared.users.entries).1
  have disposes := dispose_states taken.2 async taken.1
  have handed : (estate.resetEnv type async).pending = disposed.pending :=
    (renewCompileLua_frame disposed).2.1
  have released : (estate.resetEnv type async).ledgers.states.released =
      disposed.ledgers.states.released ++ estate.compileLua.toList := by
    have kept : disposed.compileLua = estate.compileLua :=
      (dispose_frame taken.2 async taken.1).2.1.trans compileLua
    rw [← kept]
    exact renewCompileLua_released disposed
  rw [handed, released]
  by_cases deferred : async = true ∧ estate.users.entries ≠ []
  · rw [if_pos deferred]
    rw [if_pos ⟨deferred.1, some_iff.mpr deferred.2⟩] at disposes
    refine ⟨⟨taken.1, disposes.1.trans (congrArg (· ++ [taken.1]) pending), array⟩, ?_⟩
    rw [disposes.2, closed]
  · rw [if_neg deferred]
    rw [if_neg fun both => deferred ⟨both.1, some_iff.mp both.2⟩] at disposes
    refine ⟨disposes.1.trans pending, ?_⟩
    rw [disposes.2, closed, array]

/-- A reset does to whom it should, as long as everything is accounted for. -/
theorem Accounted.resets (accounted : estate.Accounted []) (type : SubsystemType) (async : Bool) :
    Resets type async estate (estate.resetEnv type async) := by
  let prepared := estate.resetLibraries type
  let taken := prepared.takeStates type
  let disposed := taken.2.dispose async taken.1
  obtain ⟨before, -, -, ledgers⟩ := resetLibraries_frame estate type
  have disposes := dispose_frame taken.2 async taken.1
  have renews := renewCompileLua_frame disposed
  have users : (estate.resetEnv type async).users = taken.2.users := renews.1.trans disposes.1
  constructor
  · exact resetEnv_taken estate type async
  · -- After the reset they are in an array or closed, and nothing is in two places.
    intro lua member reached
    have once := List.nodup_iff_count_le_one.mp (accounted.resetEnv type async).states.nodup lua
    have reachable := List.count_pos_iff.mpr reached
    simp only [heldStates, List.flatMap_nil, List.nil_append, List.count_append] at once
    have moved := resetEnv_taken estate type async
    split at moved
    · obtain ⟨⟨array, handed, same⟩, -⟩ := moved
      have inArray : 0 < (array.flatMap UserRecord.states).count lua :=
        List.count_pos_iff.mpr (same ▸ member)
      rw [handed, List.flatten_append, List.flatMap_append, List.count_append] at once
      simp only [List.flatten_singleton] at once
      omega
    · have closed := List.count_pos_iff.mpr member
      rw [moved.2, List.count_append, List.count_append] at once
      omega
  · intro username us found
    rw [users, ← ledgers]
    exact takeStates_lookup (before ▸ found)
  · intro username missing
    rw [users]
    exact takeStates_nobody (before ▸ missing) type
  · have libraries : (estate.resetEnv type async).libraries = prepared.libraries ∧
        (estate.resetEnv type async).libraryLedger = prepared.libraryLedger :=
      ⟨renews.2.2.1.trans disposes.2.2.1, renews.2.2.2.trans disposes.2.2.2⟩
    rw [libraries.1, libraries.2]
    cases type <;> exact ⟨rfl, rfl⟩

end Estate

/-- What a reset does to what the users' states hold. -/
structure System.ResetsContents (type : SubsystemType) (before after : System) : Prop where
  dropped : type = .all → after.ctx.userStates = ∅
  renewed : type ≠ .all → ∀ username, (after.ctx.userStates.lookup username).map (·.of type) =
    (before.ctx.userStates.lookup username).map fun _ => createUserLuaState before.ctx type
  kept : type ≠ .all → ∀ username other, other ≠ type → other ≠ .all →
    (after.ctx.userStates.lookup username).map (·.of other) =
      (before.ctx.userStates.lookup username).map (·.of other)

theorem System.step_reset_contents (rt : Runtime) (system : System) (type : SubsystemType)
    (async insecure : Bool) :
    ResetsContents type system (system.step rt (.reset type async insecure)) where
  dropped := by
    rintro rfl
    rfl
  renewed := by
    intro part username
    have fresh : createUserLuaState (resetLibraries system.ctx type) type =
        createUserLuaState system.ctx type := by
      unfold resetLibraries
      split <;> rfl
    rw [step_reset_lookup, if_neg part, Option.map_map, ← fresh]
    congr 1
    funext user
    cases type with
    | all => exact absurd rfl part
    | eval | function => rfl
  kept := by
    intro part username other differs one
    rw [step_reset_lookup, if_neg part, Option.map_map]
    congr 1
    funext user
    cases type with
    | all => exact absurd rfl part
    | eval =>
        cases other with
        | eval => exact absurd rfl differs
        | function | all => rfl
    | function =>
        cases other with
        | eval => rfl
        | function => exact absurd rfl differs
        | all => exact absurd rfl one

/-- What the server does next: it asks something of the engine, or runs a callback that a
reset has handed to it. -/
inductive Turn where
  | request (request : Request)
  | callback (index : Nat)

/-- The engine under its server, and what its pointers refer to. -/
structure Household where
  system : System
  estate : Estate

namespace Household

/-- The engine after it was loaded. -/
def initial (enableFfiApi : Bool) : Household := ⟨.initial enableFfiApi, .initial⟩

/-- What a request does to what the pointers refer to. -/
def follow (rt : Runtime) (household : Household) : Request → Estate
  | .compile type code fuel topLevel =>
      if type ≠ .eval ∧ (registeredCount rt fuel code topLevel).isSome then
        household.estate.addLibrary (household.system.ctx.nextLibId + 1)
      else household.estate
  | .call username _ _ _ _ _ => household.estate.getOrCreateUserState username
  | .free handle =>
      match handle.libId.bind household.system.ctx.libraries.lookup with
      | none => household.estate
      | some lib =>
          if lib.refCount - 1 = 0 then household.estate.freeLibrary (handle.libId.getD 0)
          else household.estate
  | .reset type async _ => household.estate.resetEnv type async

/-- A callback is run once, while the process lives. -/
def Admits (household : Household) : Turn → Prop
  | .request request => household.system.Admits request
  | .callback index => household.system.crashed = false ∧ index < household.estate.pending.length

def step (rt : Runtime) (household : Household) : Turn → Household
  | .request request => ⟨household.system.step rt request, household.follow rt request⟩
  | .callback index => { household with estate := household.estate.resetLuaContextAsync index }

def machine (rt : Runtime) : InputMachine Household Turn := ⟨Admits, step rt⟩

instance (household : Household) : (turn : Turn) → Decidable (household.Admits turn)
  | .request request => inferInstanceAs (Decidable (household.system.Admits request))
  | .callback index => inferInstanceAs (Decidable (household.system.crashed = false ∧
      index < household.estate.pending.length))

instance (rt : Runtime) (household : Household) (turns : List Turn) :
    Decidable ((machine rt).Run household turns) :=
  @InputMachine.decidableAlong _ _ (machine rt) Admits (fun _ _ => inferInstance) household turns

/-- The dictionaries of pointers have the keys of the dictionaries of what they refer to. -/
structure Mirrors (household : Household) : Prop where
  users : ∀ username, username ∈ household.estate.users ↔
    username ∈ household.system.ctx.userStates
  libraries : ∀ libId, libId ∈ household.estate.libraries ↔
    libId ∈ household.system.ctx.libraries

section Steps

variable {rt : Runtime} {household : Household}

theorem initial_mirrors (enableFfiApi : Bool) : (initial enableFfiApi).Mirrors where
  users := fun _ => Iff.rfl
  libraries := fun _ => Iff.rfl

/-- A compilation that registers functions adds a library, and no other adds one. -/
theorem step_compile_libraries (system : System) (type : SubsystemType) (code : Bytes)
    (fuel : Nat) (topLevel : ScriptRun) (libId : Nat) :
    libId ∈ (system.step rt (.compile type code fuel topLevel)).ctx.libraries ↔
      (type ≠ .eval ∧ (registeredCount rt fuel code topLevel).isSome) ∧
        libId = system.ctx.nextLibId + 1 ∨ libId ∈ system.ctx.libraries := by
  have unregistered (fails : ∀ after functions,
      luajitEngineCompileCode rt system.ctx type code fuel topLevel ≠
        some (after, .ok functions)) :
      ¬ (type ≠ .eval ∧ (registeredCount rt fuel code topLevel).isSome) := by
    rintro ⟨library, registered⟩
    obtain ⟨count, counted⟩ := Option.isSome_iff_exists.mp registered
    obtain ⟨after, functions, ok⟩ := luajitEngineCompileCode_registered system.ctx library counted
    exact fails after functions ok
  simp only [System.step]
  cases run : luajitEngineCompileCode rt system.ctx type code fuel topLevel with
  | none =>
      have fails := unregistered fun after functions ok => by simp [run] at ok
      simp [fails]
  | some result =>
      obtain ⟨after, message | functions⟩ := result
      · have fails := unregistered fun after functions ok => by simp [run] at ok
        simp [fails, luajitEngineCompileCode_error run]
      · obtain ⟨-, ⟨eval, -, ctx⟩ | ⟨library, registered, -, ctx⟩⟩ := luajitEngineCompileCode_ok run
        · simp [ctx, eval]
        · simp [ctx, library, registered, addLibrary]

/-- Freeing a function keeps the users, and deletes its library with the last one. -/
theorem follow_free_mirrors (mirrors : household.Mirrors) (handle : Held) :
    Mirrors ⟨household.system.step rt (.free handle), household.follow rt (.free handle)⟩ := by
  have users (username : Bytes) :
      username ∈ (household.system.step rt (.free handle)).ctx.userStates ↔
        username ∈ household.system.ctx.userStates := by
    rw [← AList.lookup_isSome, System.step_free_lookup, ← AList.lookup_isSome]
    split
    · exact Iff.rfl
    · rw [Option.isSome_map]
  have kept : ∀ username, username ∈ (household.follow rt (.free handle)).users ↔
      username ∈ household.estate.users := by
    intro username
    simp only [follow]
    split
    · exact Iff.rfl
    · split <;> exact Iff.rfl
  refine ⟨fun username => (kept username).trans ((mirrors.users username).trans
    (users username).symm), fun libId => ?_⟩
  simp only [follow, System.step, luajitEngineFreeFunction, Held.libId]
  cases handle.compiled.function.data with
  | source text => exact mirrors.libraries libId
  | functionRef name own =>
      simp only [Option.bind_some, Option.getD_some, releaseLibrary]
      cases found : household.system.ctx.libraries.lookup own with
      | none => exact mirrors.libraries libId
      | some lib =>
          have present : own ∈ household.system.ctx.libraries :=
            AList.lookup_isSome.mp (by simp [found])
          dsimp only
          split
          · simp [Estate.freeLibrary, mirrors.libraries]
          · rw [AList.mem_insert, mirrors.libraries]
            exact ⟨.inr, fun either => either.elim (fun same => same ▸ present) id⟩

/-- Every request keeps the keys of the dictionaries together. -/
theorem mirrors_request (mirrors : household.Mirrors) (accounted : household.estate.Accounted [])
    (request : Request) :
    Mirrors ⟨household.system.step rt request, household.follow rt request⟩ := by
  cases request with
  | compile type code fuel topLevel =>
      constructor
      · intro username
        rw [System.step_compile_userStates, ← mirrors.users]
        simp only [follow]
        split <;> exact Iff.rfl
      · intro libId
        rw [step_compile_libraries, ← mirrors.libraries]
        simp only [follow]
        split
        · rename_i registers
          simp [Estate.addLibrary, registers]
        · rename_i registers
          simp [registers]
  | call username handle keys args load body =>
      constructor
      · intro other
        have called : other ∈ (household.system.step rt
            (.call username handle keys args load body)).ctx.userStates ↔
              other = cString username ∨ other ∈ household.system.ctx.userStates :=
          AList.mem_insert _
        rw [called, ← mirrors.users]
        simp only [follow, Estate.getOrCreateUserState]
        split
        · rename_i present
          exact ⟨.inr, fun either => either.elim (fun same => same ▸ present) id⟩
        · exact AList.mem_insert _
      · intro libId
        have kept : (household.follow rt (.call username handle keys args load body)).libraries =
            household.estate.libraries := by
          simp only [follow, Estate.getOrCreateUserState]
          split <;> rfl
        rw [kept]
        exact mirrors.libraries libId
  | free handle => exact follow_free_mirrors mirrors handle
  | reset type async insecure =>
      have resets := accounted.resets type async
      constructor
      · intro username
        rw [← AList.lookup_isSome, ← AList.lookup_isSome, System.step_reset_lookup]
        have known := mirrors.users username
        rw [← AList.lookup_isSome, ← AList.lookup_isSome] at known
        simp only [follow]
        cases found : household.estate.users.lookup username with
        | none =>
            rw [found] at known
            rw [resets.nobody username found]
            split
            · rfl
            · simpa using known
        | some us =>
            rw [found] at known
            have after := resets.users username us found
            split
            · rename_i all
              rw [if_pos all] at after
              simp [after]
            · rename_i part
              rw [if_neg part] at after
              obtain ⟨lua, -, renewed⟩ := after
              rw [renewed, Option.isSome_map]
              exact known
      · intro libId
        have libraries := resets.libraries
        have known := mirrors.libraries libId
        cases type with
        | eval =>
            rw [if_pos rfl] at libraries
            simp only [follow, libraries.1]
            exact known
        | function | all =>
            rw [if_neg (by decide)] at libraries
            simp only [follow, libraries.1]
            exact Iff.rfl

/-- Every request keeps the account. -/
theorem accounted_request (mirrors : household.Mirrors) (accounted : household.estate.Accounted [])
    (numbers : household.system.Numbering) (request : Request) :
    (household.follow rt request).Accounted [] := by
  cases request with
  | compile type code fuel topLevel =>
      simp only [follow]
      split
      · apply accounted.addLibrary
        intro taken
        have known := numbers.entries _ ((mirrors.libraries _).mp taken)
        omega
      · exact accounted
  | call username handle keys args load body => exact accounted.getOrCreateUserState username
  | free handle =>
      simp only [follow]
      split
      · exact accounted
      · split
        · exact accounted.freeLibrary _
        · exact accounted
  | reset type async insecure => exact accounted.resetEnv type async

variable (rt) in
/-- What holds of a household however it came about: its account is right, a reset
partitions the users' states, and a callback closes those of its own array. -/
structure Law (household : Household) : Prop where
  accounted : household.estate.Accounted []
  mirrors : household.Mirrors
  resets : ∀ type async insecure,
    Estate.Resets type async household.estate
        (household.step rt (.request (.reset type async insecure))).estate ∧
      System.ResetsContents type household.system
        (household.step rt (.request (.reset type async insecure))).system
  callbacks : ∀ index array, household.estate.pending[index]? = some array →
    (household.step rt (.callback index)).estate.pending = household.estate.pending.eraseIdx index ∧
      (household.step rt (.callback index)).estate.ledgers.states.released =
        household.estate.ledgers.states.released ++ array.flatMap UserRecord.states

theorem law_of (accounted : household.estate.Accounted []) (mirrors : household.Mirrors) :
    household.Law rt where
  accounted := accounted
  mirrors := mirrors
  resets := fun type async insecure => ⟨accounted.resets type async,
    System.step_reset_contents rt household.system type async insecure⟩
  callbacks := by
    intro index array found
    refine ⟨rfl, ?_⟩
    simp [step, Estate.resetLuaContextAsync, StateLedgers.destroyAll_states, Ledger.release, found]

end Steps

/-- In every run of the engine, with its callbacks run at any time, every reset partitions
the users' states and frees the libraries it drops, and every Lua state, record and library
ever made is in one place, or was closed or freed once. -/
theorem reset_ownership_throughout (rt : Runtime) (enableFfiApi : Bool) {turns : List Turn}
    (run : (machine rt).Run (initial enableFfiApi) turns) :
    (machine rt).Visits (Law rt) (initial enableFfiApi) turns := by
  have invariant : (machine rt).Visits (fun household =>
      household.estate.Accounted [] ∧ household.Mirrors ∧ household.system.Numbering)
      (initial enableFfiApi) turns := by
    refine run.visits ?_ ⟨Estate.initial_accounted, initial_mirrors enableFfiApi,
      System.initial_numbering enableFfiApi⟩ (run.mono fun _ _ _ => trivial)
    rintro household turn ⟨accounted, mirrors, numbers⟩ admitted -
    cases turn with
    | request request =>
        exact ⟨accounted_request mirrors accounted numbers request,
          mirrors_request mirrors accounted request, System.numbering_step request numbers⟩
    | callback index =>
        exact ⟨accounted.resetLuaContextAsync admitted.2, ⟨mirrors.users, mirrors.libraries⟩,
          numbers⟩
  exact invariant.mono fun household holds => law_of holds.1 holds.2.1

/-- Two resets, the second before the callback of the first has run. -/
def twoResets : List Turn :=
  [.request (.compile .eval (bytes "return 1") 0 System.idleBody),
    .request (.call (bytes "alice") ⟨⟨none, none, ⟨.source (bytes "return 1"), 1⟩, 0⟩,
      bytes "return 1", 0, 0⟩ [] [] System.idleBody System.idleBody),
    .request (.reset .eval true false), .request (.reset .all true false),
    .callback 1, .callback 0]

theorem two_resets_accounted :
    (machine .plain).Visits (Law .plain) (initial false) twoResets := by
  have run : (machine .plain).Run (initial false) twoResets := by decide +kernel
  exact reset_ownership_throughout .plain false run

end Household

end ValkeyLuajit
