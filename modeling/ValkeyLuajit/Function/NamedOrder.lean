import ValkeyLuajit.Function.NamedArguments
import ValkeyLuajit.Library.Ledger

/-!
# The order of named arguments

`lua_next` visits the entries of a table in some order. What a call of
`server.register_function` records of them, and whether it accepts them, does not depend on
that order, and everything made on the way is owned or freed, exactly when no two keys stand
for a field that holds a string and is filled, no flags table raises an error, and the flags
tables of an acceptable call agree.
-/

namespace ValkeyLuajit

open Lua

namespace EntryReading

/-- The entry gives the field a string. -/
def Gives (reading : EntryReading) (field : StringField) : Prop :=
  ∃ content, reading = .text field content

/-- The entry is for the field, and may have no string for it. -/
def Names (reading : EntryReading) (field : StringField) : Prop :=
  reading.Gives field ∨ reading = .noText field

/-- The loop goes on behind the entry. -/
def Accepted : EntryReading → Prop
  | .text _ _ | .callback | .flags _ => True
  | .noText _ | .refused | .raises | .endless => False

end EntryReading

namespace PendingFunc

variable (pf : PendingFunc) {field other : StringField} (str : Option ModuleString)

@[simp] theorem getString_setString_self :
    (pf.setString field str).getString field = str := by
  cases field <;> rfl

theorem getString_setString_of_ne (ne : other ≠ field) :
    (pf.setString field str).getString other = pf.getString other := by
  cases field <;> cases other <;> first | rfl | exact absurd rfl ne

@[simp] theorem setString_id : (pf.setString field str).id = pf.id := by
  cases field <;> rfl

@[simp] theorem setString_hasCallback : (pf.setString field str).hasCallback = pf.hasCallback := by
  cases field <;> rfl

@[simp] theorem setString_flags : (pf.setString field str).flags = pf.flags := by
  cases field <;> rfl

/-- The strings are that of a field and those of the others. -/
theorem strings_perm :
    pf.strings.Perm (((pf.getString field).map ModuleString.id).toList ++
      (pf.setString field none).strings) := by
  cases field with
  | name => exact .refl _
  | desc =>
      simp only [strings, getString, setString, Option.map_none, Option.toList_none,
        List.append_nil]
      exact List.perm_append_comm

/-- A new string joins those of the other fields. -/
theorem strings_setString_some (str : ModuleString) :
    (pf.setString field (some str)).strings.Perm
      (str.id :: (pf.setString field none).strings) := by
  cases field with
  | name => exact .refl _
  | desc =>
      simp only [strings, setString, Option.map_some, Option.toList_some, Option.map_none,
        Option.toList_none, List.append_nil]
      exact List.perm_append_singleton _ _

end PendingFunc

namespace ReadSoFar

/-- The objects made since the call began are the record, the strings of the pending
function and the strings that are lost. -/
structure Holds (start : Ledger) (read : ReadSoFar) : Prop where
  record : read.pf.id = start.made
  since : start.Since ⟨read.allocated, start.released⟩ []
    (read.lost ++ (read.pf.strings ++ [start.made]))

variable {start : Ledger} {read : ReadSoFar}

theorem holds_start (start : Ledger) : (ReadSoFar.start start.made).Holds start where
  record := rfl
  since := (Ledger.Since.refl start).make

/-- A string that gives way to `NULL` is lost. -/
theorem Holds.drop (holds : read.Holds start) (field : StringField) :
    (read.drop field).Holds start where
  record := by rw [ReadSoFar.drop, PendingFunc.setString_id, holds.record]
  since := by
    refine holds.since.perm ?_
    rw [ReadSoFar.drop, List.append_assoc]
    refine List.Perm.append_left read.lost ?_
    rw [← List.append_assoc]
    exact (read.pf.strings_perm).append_right [start.made]

/-- So is a string that gives way to a new one. -/
theorem Holds.take (holds : read.Holds start) (field : StringField) (content : Bytes) :
    (read.take field content).Holds start where
  record := by rw [ReadSoFar.take, PendingFunc.setString_id, holds.record]
  since := by
    refine (holds.drop field).since.make.perm ?_
    have new : (read.take field content).pf.strings.Perm
        (read.allocated :: (read.drop field).pf.strings) := read.pf.strings_setString_some _
    have joined := new.symm.append_right [start.made]
    exact List.perm_middle.symm.trans (List.Perm.append_left _ joined)

end ReadSoFar

namespace LoadHost

/-- What was made and what was freed. -/
def ledger (host : LoadHost) : Ledger := ⟨host.allocated, host.freed⟩

/-- Every object the call made belongs to the function it registered or was freed, and each
once. -/
def Settles (before : LoadHost) : Outcome LoadHost Unit → Prop
  | .done _ final => ∃ pf freed, final.host.functions = before.functions ++ [pf] ∧
      before.ledger.Since final.host.ledger freed pf.objects
  | .raised _ final => final.host.functions = before.functions ∧
      ∃ freed, before.ledger.Since final.host.ledger freed []
  | .aborted _ _ => False

end LoadHost

/-- Of the function a call registers: its name, its description and its flags. -/
def registered : Outcome LoadHost Unit → Option (Option Bytes × Option Bytes × Nat)
  | .done _ final => final.host.functions.getLast?.map fun pf =>
      (pf.name.map ModuleString.text, pf.desc.map ModuleString.text, pf.flags)
  | _ => none

namespace ArgsReading

/-- No string is lost, and the call does not end before it can free what it made. -/
def Clean : ArgsReading → Prop
  | .complete read | .refused read => read.lost = []
  | .raises _ | .endless => False

/-- What a call records. -/
def recorded : ArgsReading → Option (Option Bytes × Option Bytes × Nat)
  | .complete read =>
      if read.pf.name.isSome ∧ read.pf.hasCallback then
        some (read.pf.name.map ModuleString.text, read.pf.desc.map ModuleString.text, read.pf.flags)
      else none
  | _ => none

/-- The objects were counted right all the way. -/
def Holds (start : Ledger) : ArgsReading → Prop
  | .complete read | .refused read | .raises read => read.Holds start
  | .endless => True

variable {host : LoadHost} {reading : ArgsReading} {outcome : Outcome LoadHost Unit}

theorem registered_eq (ends : reading.Registers host outcome) :
    registered outcome = reading.recorded := by
  cases reading with
  | complete read =>
      by_cases accepted : read.pf.name.isSome ∧ read.pf.hasCallback
      · simp only [Registers, if_pos accepted] at ends
        obtain ⟨final, rfl, same⟩ := ends
        simp only [recorded, if_pos accepted]
        simp [registered, same]
      · simp only [Registers, if_neg accepted] at ends
        obtain ⟨error, final, rfl, same⟩ := ends
        simp only [recorded, if_neg accepted]
        rfl
  | refused read =>
      obtain ⟨error, final, rfl, -⟩ := ends
      rfl
  | raises read =>
      obtain ⟨error, final, rfl, -⟩ := ends
      rfl
  | endless =>
      obtain ⟨reason, final, rfl⟩ := ends
      rfl

/-- After a refused call the lost strings are left. -/
theorem since_refuse {read : ReadSoFar} (holds : read.Holds host.ledger) :
    host.ledger.Since (host.refuse read).ledger (read.pf.strings ++ [host.allocated]) read.lost :=
  (holds.since.perm List.perm_append_comm).releaseAll

/-- Nothing but lost strings makes a refused call unsettled. -/
theorem settles_refuse_iff {read : ReadSoFar} {error : Value} {final : World LoadHost}
    (holds : read.Holds host.ledger) (same : final.host = host.refuse read) :
    host.Settles (.raised error final) ↔ read.lost = [] := by
  have left := since_refuse holds
  rw [LoadHost.Settles, same]
  constructor
  · rintro ⟨-, freed, since⟩
    exact (left.held_unique since).eq_nil
  · intro none
    rw [none] at left
    exact ⟨rfl, _, left⟩

/-- And nothing else makes an accepted one unsettled. -/
theorem settles_accept_iff {read : ReadSoFar} {final : World LoadHost}
    (holds : read.Holds host.ledger)
    (same : final.host =
      { host with functions := host.functions ++ [read.pf], allocated := read.allocated }) :
    host.Settles (.done () final) ↔ read.lost = [] := by
  have owned : read.pf.objects = read.pf.strings ++ [host.allocated] := by
    rw [PendingFunc.objects, holds.record]
    rfl
  have held := holds.since
  rw [LoadHost.Settles, same]
  constructor
  · rintro ⟨pf, freed, functions, since⟩
    obtain rfl : read.pf = pf := by simpa using functions
    rw [owned] at since
    have length := (held.held_unique since).length_eq
    rw [List.length_append] at length
    exact List.length_eq_zero_iff.mp (Nat.add_eq_right.mp length)
  · intro none
    rw [none, List.nil_append] at held
    exact ⟨read.pf, [], rfl, owned ▸ held⟩

theorem settles_iff (holds : reading.Holds host.ledger) (ends : reading.Registers host outcome) :
    host.Settles outcome ↔ reading.Clean := by
  cases reading with
  | complete read =>
      by_cases accepted : read.pf.name.isSome ∧ read.pf.hasCallback
      · simp only [Registers, if_pos accepted] at ends
        obtain ⟨final, rfl, same⟩ := ends
        exact settles_accept_iff holds same
      · simp only [Registers, if_neg accepted] at ends
        obtain ⟨error, final, rfl, same⟩ := ends
        exact settles_refuse_iff holds same
  | refused read =>
      obtain ⟨error, final, rfl, same⟩ := ends
      exact settles_refuse_iff holds same
  | raises read =>
      obtain ⟨error, final, rfl, same⟩ := ends
      refine iff_of_false ?_ id
      rintro ⟨-, freed, since⟩
      rw [same] at since
      have none := (ReadSoFar.Holds.since holds).held_unique since
      simpa using none.length_eq
  | endless =>
      obtain ⟨reason, final, rfl⟩ := ends
      exact iff_of_false id id

end ArgsReading

section Orders

variable {α : Type} {reading : α → EntryReading} {entries rest : List α} {entry other : α}
  {read : ReadSoFar} {field : StringField}

/-- Reading an entry after another keeps the count. -/
theorem holds_readEntries {start : Ledger} (holds : read.Holds start) :
    (readEntries reading entries read).Holds start := by
  induction entries generalizing read with
  | nil => exact holds
  | cons entry entries inductionHypothesis =>
      rw [readEntries]
      cases reading entry with
      | text field content => exact inductionHypothesis (holds.take field content)
      | noText field => exact holds.drop field
      | callback => exact inductionHypothesis ⟨holds.record, holds.since⟩
      | flags mask => exact inductionHypothesis ⟨holds.record, holds.since⟩
      | refused => exact holds
      | raises => exact holds
      | endless => trivial

/-- A lost string is never found again. -/
theorem not_clean_of_lost (lost : read.lost ≠ []) : ¬ (readEntries reading entries read).Clean := by
  induction entries generalizing read with
  | nil => exact lost
  | cons entry entries inductionHypothesis =>
      rw [readEntries]
      cases reading entry with
      | text field content => exact inductionHypothesis (by simp [ReadSoFar.take, lost])
      | noText field => simp [ArgsReading.Clean, ReadSoFar.drop, lost]
      | callback => exact inductionHypothesis lost
      | flags mask => exact inductionHypothesis lost
      | refused => exact lost
      | raises => exact id
      | endless => exact id

/-- No other entry is for a field that an entry gives a string to, and none raises an error. -/
structure Unambiguous (reading : α → EntryReading) (entries : List α) : Prop where
  single : ∀ entry ∈ entries, ∀ other ∈ entries, ∀ field,
    (reading entry).Gives field → (reading other).Names field → other = entry
  calm : ∀ entry ∈ entries, reading entry ≠ .raises

theorem Unambiguous.perm (unambiguous : Unambiguous reading entries)
    (same : rest.Perm entries) : Unambiguous reading rest where
  single := fun entry member other member' =>
    unambiguous.single entry (same.mem_iff.mp member) other (same.mem_iff.mp member')
  calm := fun entry member => unambiguous.calm entry (same.mem_iff.mp member)

theorem Unambiguous.tail (unambiguous : Unambiguous reading (entry :: entries)) :
    Unambiguous reading entries where
  single := fun entry member other member' =>
    unambiguous.single entry (List.mem_cons_of_mem _ member) other (List.mem_cons_of_mem _ member')
  calm := fun entry member => unambiguous.calm entry (List.mem_cons_of_mem _ member)

/-- A field that has a string is not named again. -/
def ReadSoFar.Fresh (read : ReadSoFar) (reading : α → EntryReading) (entries : List α) : Prop :=
  read.lost = [] ∧ ∀ field, read.pf.getString field ≠ none →
    ∀ entry ∈ entries, ¬ (reading entry).Names field

/-- While no field is named twice, no string is lost. -/
theorem clean_of_fresh (unambiguous : Unambiguous reading entries) (distinct : entries.Nodup)
    (ends : ∀ entry ∈ entries, reading entry ≠ .endless) (fresh : read.Fresh reading entries) :
    (readEntries reading entries read).Clean := by
  induction entries generalizing read with
  | nil => exact fresh.1
  | cons entry entries inductionHypothesis =>
      have calm := unambiguous.calm entry List.mem_cons_self
      have terminates := ends entry List.mem_cons_self
      obtain ⟨absent, distinct⟩ := List.nodup_cons.mp distinct
      have ends' : ∀ entry ∈ entries, reading entry ≠ .endless :=
        fun other member => ends other (List.mem_cons_of_mem _ member)
      have fresh' : read.Fresh reading entries :=
        ⟨fresh.1, fun field filled other member =>
          fresh.2 field filled other (List.mem_cons_of_mem _ member)⟩
      have empty (field : StringField) (names : (reading entry).Names field) :
          read.pf.getString field = none := by
        by_contra filled
        exact fresh.2 field filled entry List.mem_cons_self names
      rw [readEntries]
      cases kind : reading entry with
      | text field content =>
          have gives : (reading entry).Gives field := ⟨content, kind⟩
          have unset := empty field (.inl gives)
          refine inductionHypothesis unambiguous.tail distinct ends' ⟨?_, ?_⟩
          · simp [ReadSoFar.take, fresh.1, unset]
          · intro field' filled other member names
            by_cases same : field' = field
            · subst same
              have equal := unambiguous.single entry List.mem_cons_self other
                (List.mem_cons_of_mem _ member) field' gives names
              exact absent (equal ▸ member)
            · rw [ReadSoFar.take, PendingFunc.getString_setString_of_ne _ _ same] at filled
              exact fresh'.2 field' filled other member names
      | noText field =>
          have unset := empty field (.inr kind)
          simp [ArgsReading.Clean, ReadSoFar.drop, fresh.1, unset]
      | callback => exact inductionHypothesis unambiguous.tail distinct ends' fresh'
      | flags mask => exact inductionHypothesis unambiguous.tail distinct ends' fresh'
      | refused => exact fresh.1
      | raises => exact calm kind
      | endless => exact terminates kind

/-- Two entries for one field of which the first one fills it lose a string. -/
theorem not_clean_of_twice (gives : (reading entry).Gives field)
    (names : (reading other).Names field) :
    ¬ (readEntries reading (entry :: other :: rest) read).Clean := by
  obtain ⟨content, kind⟩ := gives
  rw [readEntries, kind]
  dsimp only
  rw [readEntries]
  rcases names with ⟨content', kind'⟩ | kind'
  · rw [kind']
    exact not_clean_of_lost (by simp [ReadSoFar.take])
  · rw [kind']
    simp [ArgsReading.Clean, ReadSoFar.drop, ReadSoFar.take]

/-- In every order nothing is lost exactly when the entries are not ambiguous. -/
theorem clean_iff [DecidableEq α] (distinct : entries.Nodup)
    (ends : ∀ entry ∈ entries, reading entry ≠ .endless) (fresh : read.lost = [])
    (blank : ∀ field, read.pf.getString field = none) :
    (∀ order, order.Perm entries → (readEntries reading order read).Clean) ↔
      Unambiguous reading entries := by
  constructor
  · intro clean
    constructor
    · intro entry member other member' field gives names
      by_contra different
      have behind : other ∈ entries.erase entry := (List.mem_erase_of_ne different).mpr member'
      have order : (entry :: other :: (entries.erase entry).erase other).Perm entries :=
        ((List.perm_cons_erase member).trans ((List.perm_cons_erase behind).cons entry)).symm
      exact not_clean_of_twice gives names (clean _ order)
    · intro entry member raises
      have first := clean _ (List.perm_cons_erase member).symm
      rw [readEntries, raises] at first
      exact first
  · intro unambiguous order same
    refine clean_of_fresh (unambiguous.perm same) (same.nodup_iff.mpr distinct)
      (fun entry member => ends entry (same.mem_iff.mp member)) ⟨fresh, ?_⟩
    intro field filled
    exact absurd (blank field) filled

/-- What the entries set, of what was read. A field that no entry sets is as it was. -/
structure ReadSoFar.Sets (read result : ReadSoFar) (reading : α → EntryReading)
    (entries : List α) : Prop where
  string : ∀ field,
    (∃ entry ∈ entries, ∃ content, reading entry = .text field content ∧
      (result.pf.getString field).map ModuleString.text = some content) ∨
    ((∀ entry ∈ entries, ¬ (reading entry).Gives field) ∧
      result.pf.getString field = read.pf.getString field)
  callback : result.pf.hasCallback = true ↔
    read.pf.hasCallback = true ∨ ∃ entry ∈ entries, reading entry = .callback
  flags : (∃ entry ∈ entries, reading entry = .flags result.pf.flags) ∨
    ((∀ entry ∈ entries, ∀ mask, reading entry ≠ .flags mask) ∧
      result.pf.flags = read.pf.flags)

/-- What a later entry sets stays set; else it is what the first entry leaves. -/
theorem ReadSoFar.Sets.cons {mid result : ReadSoFar} (later : mid.Sets result reading entries)
    (string : ∀ field,
      (∃ content, reading entry = .text field content ∧
        (mid.pf.getString field).map ModuleString.text = some content) ∨
      (¬ (reading entry).Gives field ∧ mid.pf.getString field = read.pf.getString field))
    (callback : mid.pf.hasCallback = true ↔
      read.pf.hasCallback = true ∨ reading entry = .callback)
    (flags : reading entry = .flags mid.pf.flags ∨
      (∀ mask, reading entry ≠ .flags mask) ∧ mid.pf.flags = read.pf.flags) :
    read.Sets result reading (entry :: entries) where
  string field := by
    rcases later.string field with ⟨other, member, found⟩ | ⟨none, kept⟩
    · exact .inl ⟨other, List.mem_cons_of_mem _ member, found⟩
    · rw [kept]
      rcases string field with found | ⟨notHere, same⟩
      · exact .inl ⟨entry, List.mem_cons_self, found⟩
      · exact .inr ⟨List.forall_mem_cons.mpr ⟨notHere, none⟩, same⟩
  callback := by
    rw [later.callback, callback, List.exists_mem_cons_iff, or_assoc]
  flags := by
    rcases later.flags with ⟨other, member, found⟩ | ⟨none, kept⟩
    · exact .inl ⟨other, List.mem_cons_of_mem _ member, found⟩
    · rw [kept]
      rcases flags with found | ⟨notHere, same⟩
      · exact .inl ⟨entry, List.mem_cons_self, found⟩
      · exact .inr ⟨List.forall_mem_cons.mpr ⟨notHere, none⟩, same⟩

/-- The loop comes to its end exactly when every entry is accepted, and has set the fields
then. -/
theorem readEntries_complete {result : ReadSoFar}
    (complete : readEntries reading entries read = .complete result) :
    (∀ entry ∈ entries, (reading entry).Accepted) ∧ read.Sets result reading entries := by
  induction entries generalizing read with
  | nil =>
      cases complete
      exact ⟨by simp, ⟨fun field => .inr ⟨by simp, rfl⟩, by simp, .inr ⟨by simp, rfl⟩⟩⟩
  | cons entry entries inductionHypothesis =>
      rw [readEntries] at complete
      cases kind : reading entry with
      | text field content =>
          rw [kind] at complete
          obtain ⟨accepted, later⟩ := inductionHypothesis complete
          refine ⟨List.forall_mem_cons.mpr ⟨by rw [kind]; trivial, accepted⟩, later.cons ?_ ?_ ?_⟩
          · intro other
            by_cases same : other = field
            · subst same
              exact .inl ⟨content, kind, by simp [ReadSoFar.take]⟩
            · refine .inr ⟨?_, PendingFunc.getString_setString_of_ne _ _ same⟩
              rintro ⟨content', gives⟩
              rw [kind] at gives
              cases gives
              exact same rfl
          · simp [ReadSoFar.take, kind]
          · simp [ReadSoFar.take, kind]
      | callback | flags mask =>
          rw [kind] at complete
          obtain ⟨accepted, later⟩ := inductionHypothesis complete
          refine ⟨List.forall_mem_cons.mpr ⟨by rw [kind]; trivial, accepted⟩, later.cons ?_ ?_ ?_⟩
          · exact fun field => .inr ⟨by simp [EntryReading.Gives, kind], by cases field <;> rfl⟩
          · simp [kind]
          · simp [kind]
      | noText field => simp [kind] at complete
      | refused => simp [kind] at complete
      | raises => simp [kind] at complete
      | endless => simp [kind] at complete

theorem readEntries_of_accepted (accepted : ∀ entry ∈ entries, (reading entry).Accepted) :
    ∃ result, readEntries reading entries read = .complete result := by
  induction entries generalizing read with
  | nil => exact ⟨read, rfl⟩
  | cons entry entries inductionHypothesis =>
      have here := accepted entry List.mem_cons_self
      have later : ∀ other ∈ entries, (reading other).Accepted :=
        fun other member => accepted other (List.mem_cons_of_mem _ member)
      rw [readEntries]
      cases kind : reading entry with
      | text field content => exact inductionHypothesis later
      | callback => exact inductionHypothesis later
      | flags mask => exact inductionHypothesis later
      | noText field => rw [kind] at here; exact here.elim
      | refused => rw [kind] at here; exact here.elim
      | raises => rw [kind] at here; exact here.elim
      | endless => rw [kind] at here; exact here.elim

/-- No entry refuses the call, and a name and a callback are there. -/
def Acceptable (reading : α → EntryReading) (entries : List α) : Prop :=
  (∀ entry ∈ entries, (reading entry).Accepted) ∧
    (∃ entry ∈ entries, (reading entry).Gives .name) ∧ ∃ entry ∈ entries, reading entry = .callback

/-- All flags tables give the same flags. -/
def FlagsAgree (reading : α → EntryReading) (entries : List α) : Prop :=
  ∀ entry ∈ entries, ∀ other ∈ entries, ∀ mask mask',
    reading entry = .flags mask → reading other = .flags mask' → mask = mask'

theorem Acceptable.perm (acceptable : Acceptable reading entries) (same : rest.Perm entries) :
    Acceptable reading rest := by
  simpa only [Acceptable, same.mem_iff] using acceptable

/-- Before any entry is read. -/
structure ReadSoFar.Blank (read : ReadSoFar) : Prop where
  lost : read.lost = []
  string : ∀ field, read.pf.getString field = none
  callback : read.pf.hasCallback = false

theorem ReadSoFar.blank_start (record : Nat) : (ReadSoFar.start record).Blank where
  lost := rfl
  string field := by cases field <;> rfl
  callback := rfl

/-- Of an acceptable call everything that was set is recorded. -/
theorem recorded_of_acceptable (acceptable : Acceptable reading entries) :
    ∃ result, readEntries reading entries read = .complete result ∧
      read.Sets result reading entries ∧
      (readEntries reading entries read).recorded =
        some ((result.pf.getString .name).map ModuleString.text,
          (result.pf.getString .desc).map ModuleString.text, result.pf.flags) := by
  obtain ⟨accepted, ⟨named, member, gives⟩, hasCallback⟩ := acceptable
  obtain ⟨result, complete⟩ := readEntries_of_accepted accepted
  obtain ⟨-, sets⟩ := readEntries_complete complete
  refine ⟨result, complete, sets, ?_⟩
  have callable : result.pf.hasCallback = true := sets.callback.mpr (.inr hasCallback)
  have isName : result.pf.name.isSome := by
    rcases sets.string .name with ⟨_, _, content, -, found⟩ | ⟨none, -⟩
    · have filled : result.pf.name.map ModuleString.text = some content := found
      rw [Option.map_eq_some_iff] at filled
      obtain ⟨str, filled, -⟩ := filled
      rw [filled]
      rfl
    · exact absurd gives (none named member)
  rw [complete, ArgsReading.recorded, if_pos ⟨isName, callable⟩]
  rfl

/-- Of any other call nothing is. -/
theorem recorded_of_not_acceptable (blank : read.Blank)
    (refused : ¬ Acceptable reading entries) :
    (readEntries reading entries read).recorded = none := by
  cases complete : readEntries reading entries read with
  | complete result =>
      obtain ⟨accepted, sets⟩ := readEntries_complete complete
      rw [ArgsReading.recorded, if_neg]
      rintro ⟨isName, callable⟩
      refine refused ⟨accepted, ?_, ?_⟩
      · rcases sets.string .name with ⟨entry, member, content, gives, -⟩ | ⟨-, kept⟩
        · exact ⟨entry, member, content, gives⟩
        · have unset : result.pf.name = none := kept.trans (blank.string .name)
          rw [unset] at isName
          cases isName
      · rcases sets.callback.mp callable with before | found
        · rw [blank.callback] at before
          cases before
        · exact found
  | refused result => rfl
  | raises result => rfl
  | endless => rfl

/-- In two orders the entries set the same texts, if no field is named twice. -/
theorem text_unique {result result' : ReadSoFar} (unambiguous : Unambiguous reading entries)
    (same : rest.Perm entries) (sets : read.Sets result reading rest)
    (sets' : read.Sets result' reading entries) (field : StringField) :
    (result.pf.getString field).map ModuleString.text =
      (result'.pf.getString field).map ModuleString.text := by
  rcases sets.string field with ⟨entry, member, content, gives, found⟩ | ⟨none, kept⟩
  · have member' : entry ∈ entries := same.mem_iff.mp member
    rcases sets'.string field with ⟨other, there, content', gives', found'⟩ | ⟨none, -⟩
    · obtain rfl := unambiguous.single entry member' other there field ⟨content, gives⟩
        (.inl ⟨content', gives'⟩)
      rw [gives] at gives'
      cases gives'
      rw [found, found']
    · exact absurd ⟨content, gives⟩ (none entry member')
  · rcases sets'.string field with ⟨other, there, content, gives, -⟩ | ⟨-, kept'⟩
    · exact absurd ⟨content, gives⟩ (none other (same.mem_iff.mpr there))
    · rw [kept, kept']

/-- And the same flags, if the flags tables agree. -/
theorem flags_unique {result result' : ReadSoFar} (agree : FlagsAgree reading entries)
    (same : rest.Perm entries) (sets : read.Sets result reading rest)
    (sets' : read.Sets result' reading entries) : result.pf.flags = result'.pf.flags := by
  rcases sets.flags with ⟨entry, member, gives⟩ | ⟨none, kept⟩
  · have member' : entry ∈ entries := same.mem_iff.mp member
    rcases sets'.flags with ⟨other, there, gives'⟩ | ⟨none, -⟩
    · exact agree entry member' other there _ _ gives gives'
    · exact absurd gives (none entry member' _)
  · rcases sets'.flags with ⟨other, there, gives⟩ | ⟨-, kept'⟩
    · exact absurd gives (none other (same.mem_iff.mpr there) _)
    · rw [kept, kept']

/-- The flags of the last entry stay. -/
theorem flags_of_last {result : ReadSoFar} {mask : Nat} (last : reading entry = .flags mask)
    (complete : readEntries reading (entries ++ [entry]) read = .complete result) :
    result.pf.flags = mask := by
  induction entries generalizing read with
  | nil =>
      simp only [List.nil_append, readEntries, last] at complete
      cases complete
      rfl
  | cons other entries inductionHypothesis =>
      rw [List.cons_append, readEntries] at complete
      cases kind : reading other with
      | text field content => rw [kind] at complete; exact inductionHypothesis complete
      | callback => rw [kind] at complete; exact inductionHypothesis complete
      | flags other => rw [kind] at complete; exact inductionHypothesis complete
      | noText field => simp [kind] at complete
      | refused => simp [kind] at complete
      | raises => simp [kind] at complete
      | endless => simp [kind] at complete

/-- In every order the same is recorded exactly when the flags tables of an acceptable call
agree. -/
theorem recorded_iff [DecidableEq α] (blank : read.Blank)
    (unambiguous : Unambiguous reading entries) :
    (∀ order, order.Perm entries → (readEntries reading order read).recorded =
        (readEntries reading entries read).recorded) ↔
      (Acceptable reading entries → FlagsAgree reading entries) := by
  constructor
  · intro constant acceptable entry member other member' mask mask' gives gives'
    have last {entry : α} {mask : Nat} (member : entry ∈ entries)
        (gives : reading entry = .flags mask) :
        ∃ name desc, (readEntries reading entries read).recorded = some (name, desc, mask) := by
      have order : (entries.erase entry ++ [entry]).Perm entries :=
        (List.perm_append_singleton _ _).trans (List.perm_cons_erase member).symm
      obtain ⟨result, complete, -, recorded⟩ := recorded_of_acceptable (acceptable.perm order)
      rw [flags_of_last gives complete, constant _ order] at recorded
      exact ⟨_, _, recorded⟩
    obtain ⟨name, desc, here⟩ := last member gives
    obtain ⟨name', desc', there⟩ := last member' gives'
    rw [here] at there
    cases there
    rfl
  · intro agree order same
    by_cases acceptable : Acceptable reading entries
    · obtain ⟨result, -, sets, recorded⟩ := recorded_of_acceptable (acceptable.perm same)
      obtain ⟨result', -, sets', recorded'⟩ := recorded_of_acceptable acceptable
      rw [recorded, recorded', text_unique unambiguous same sets sets' .name,
        text_unique unambiguous same sets sets' .desc, flags_unique (agree acceptable) same sets sets']
    · have refused : ¬ Acceptable reading order := fun accepted => acceptable (accepted.perm same.symm)
      rw [recorded_of_not_acceptable blank refused, recorded_of_not_acceptable blank acceptable]

/-- The condition under which the order of the entries does not matter. -/
structure OrderSafe (reading : α → EntryReading) (entries : List α) : Prop
    extends Unambiguous reading entries where
  flags : Acceptable reading entries → FlagsAgree reading entries

/-- Every order is clean, and all record the same, exactly under that condition. -/
theorem orderSafe_iff [DecidableEq α] (distinct : entries.Nodup)
    (ends : ∀ entry ∈ entries, reading entry ≠ .endless) (blank : read.Blank) :
    ((∀ order, order.Perm entries → (readEntries reading order read).Clean) ∧
      ∀ order, order.Perm entries → (readEntries reading order read).recorded =
        (readEntries reading entries read).recorded) ↔ OrderSafe reading entries := by
  rw [clean_iff distinct ends blank.lost blank.string]
  constructor
  · rintro ⟨unambiguous, constant⟩
    exact ⟨unambiguous, (recorded_iff blank unambiguous).mp constant⟩
  · intro safe
    exact ⟨safe.toUnambiguous, (recorded_iff blank safe.toUnambiguous).mpr safe.flags⟩

end Orders

/-- The tables differ at most in the order of their entries. -/
structure Lua.Table.Reorders (other table : Table) : Prop where
  metatable : other.metatable = table.metatable
  entries : other.entries.entries.Perm table.entries.entries

namespace Lua

variable {table other : Table} {heap : Heap} {addr : Addr} {object key : Value}

/-- A table has its entries in every order. -/
theorem Table.exists_reorder (table : Table) {order : List Entry}
    (same : order.Perm table.entries.entries) :
    ∃ other : Table, other.Reorders table ∧ other.entries.entries = order := by
  let entries : AList fun _ : Value => Value :=
    ⟨order, (List.perm_nodupKeys same).mpr table.entries.nodupKeys⟩
  refine ⟨⟨entries, table.metatable, ?_⟩, ⟨rfl, same⟩, rfl⟩
  intro key value found
  have found' : table.entries.lookup key = some value :=
    (AList.perm_lookup same).symm.trans found
  exact table.wellFormed key value found'

theorem Table.Reorders.rawGet (reorders : other.Reorders table) (key : Value) :
    other.rawGet key = table.rawGet key := by
  rw [Table.rawGet, Table.rawGet, AList.perm_lookup reorders.entries]

theorem Heap.rawGet_reorder (reorders : other.Reorders (heap.cells addr)) (place : Addr)
    (key : Value) :
    ((heap.write addr other).cells place).rawGet key = (heap.cells place).rawGet key := by
  by_cases here : place = addr
  · subst here
    rw [Heap.write_self, reorders.rawGet]
  · rw [Heap.write_of_ne _ _ here]

theorem Heap.metatableOf_reorder (reorders : other.Reorders (heap.cells addr)) (object : Value) :
    (heap.write addr other).metatableOf object = heap.metatableOf object := by
  cases object with
  | table place =>
      by_cases here : place = addr
      · subst here
        rw [Heap.metatableOf, Heap.write_self, reorders.metatable]
        rfl
      · rw [Heap.metatableOf, Heap.write_of_ne _ _ here]
        rfl
  | _ => rfl

/-- Reading a field is not affected by the order of a table's entries. -/
theorem Heap.indexChain_reorder (reorders : other.Reorders (heap.cells addr)) (links : Nat) :
    (heap.write addr other).indexChain key links object = heap.indexChain key links object := by
  have rawIndex (object : Value) :
      (heap.write addr other).rawIndex object key = heap.rawIndex object key := by
    cases object with
    | table place => exact Heap.rawGet_reorder reorders place key
    | _ => rfl
  have metafield (object : Value) :
      (heap.write addr other).metafield object "__index" = heap.metafield object "__index" := by
    unfold Heap.metafield
    rw [Heap.metatableOf_reorder reorders]
    cases heap.metatableOf object with
    | none => rfl
    | some place => exact Heap.rawGet_reorder reorders place _
  induction links generalizing object with
  | zero => rfl
  | succ links inductionHypothesis =>
      simp only [Heap.indexChain, rawIndex, metafield, inductionHypothesis]

/-- So many numbers are keys of a table at most. -/
theorem Table.exists_bound (table : Table) :
    ∃ bound : Nat, ∀ j : Nat, bound ≤ j → table.rawGet (.number (.finite j)) = .nil := by
  have bounded (keys : List Value) :
      ∃ bound : Nat, ∀ j : Nat, bound ≤ j → Value.number (.finite j) ∉ keys := by
    induction keys with
    | nil => exact ⟨0, fun _ _ => List.not_mem_nil⟩
    | cons key keys inductionHypothesis =>
        obtain ⟨bound, beyond⟩ := inductionHypothesis
        by_cases isNumber : ∃ n : Nat, Value.number (.finite n) = key
        · obtain ⟨n, rfl⟩ := isNumber
          refine ⟨max bound (n + 1), fun j large => ?_⟩
          rw [List.mem_cons, not_or]
          constructor
          · intro same
            simp only [Value.number.injEq, Number.finite.injEq, Rat.natCast_inj] at same
            omega
          · exact beyond j ((Nat.le_max_left _ _).trans large)
        · refine ⟨bound, fun j large => ?_⟩
          rw [List.mem_cons, not_or]
          exact ⟨fun same => isNumber ⟨j, same⟩, beyond j large⟩
  obtain ⟨bound, beyond⟩ := bounded table.entries.keys
  refine ⟨bound, fun j large => ?_⟩
  have absent : table.entries.lookup (.number (.finite j)) = none :=
    AList.lookup_eq_none.mpr fun member => beyond j large (AList.mem_keys.mp member)
  rw [Table.rawGet, absent]
  rfl

/-- Beyond a bound every number is without a value, along a chain of tables as well. -/
theorem Heap.exists_bound (heap : Heap) (links : Nat) (object : Value) :
    ∃ bound : Nat, ∀ j : Nat, bound ≤ j → ∀ element,
      heap.indexChain (.number (.finite j)) links object = .value element → element = .nil := by
  induction links generalizing object with
  | zero => exact ⟨0, fun j _ element found => by simp [Heap.indexChain] at found⟩
  | succ links inductionHypothesis =>
      obtain ⟨bound, beyond⟩ : ∃ bound : Nat, ∀ j : Nat, bound ≤ j →
          heap.rawIndex object (.number (.finite j)) = .nil := by
        cases object with
        | table place => exact (heap.cells place).exists_bound
        | _ => exact ⟨0, fun _ _ => rfl⟩
      obtain ⟨bound', beyond'⟩ := inductionHypothesis (heap.metafield object "__index")
      refine ⟨max bound bound', fun j large element found => ?_⟩
      have raw := beyond j ((Nat.le_max_left _ _).trans large)
      have later := beyond' j ((Nat.le_max_right _ _).trans large) element
      simp only [Heap.indexChain, raw, ne_eq, not_true_eq_false, if_false] at found
      split at found
      · split at found
        · cases found
          rfl
        · cases found
      · cases found
      · exact later found

end Lua

section Flags

variable {rt : Runtime} {fuel : Nat} {lua : State} {addr : Addr} {other : Table}

/-- The state with another table at an address. -/
def Lua.State.withTable (lua : State) (addr : Addr) (table : Table) : State :=
  { lua with heap := lua.heap.write addr table }

theorem flagsReading_reorder (reorders : other.Reorders (lua.heap.cells addr)) (table : Value)
    (rounds j flags : Nat) :
    flagsReading rt (lua.withTable addr other) table rounds j flags =
      flagsReading rt lua table rounds j flags := by
  induction rounds generalizing j flags with
  | zero => rfl
  | succ rounds inductionHypothesis =>
      have found : (lua.withTable addr other).lookup table (.number (.finite j)) =
          lua.lookup table (.number (.finite j)) := by
        cases table with
        | hidden name => rfl
        | _ => exact Heap.indexChain_reorder reorders _
      simp only [flagsReading, found, inductionHypothesis]

/-- What reading an entry comes to does not depend on the order of the entries. -/
theorem entryReading_reorder (reorders : other.Reorders (lua.heap.cells addr)) :
    entryReading rt fuel (lua.withTable addr other) = entryReading rt fuel lua := by
  funext entry
  unfold entryReading
  simp only [flagsReading_reorder reorders]

/-- With enough rounds a flags table is read to its end. -/
theorem flagsReading_ends {table : Value} {bound rounds j flags : Nat}
    (beyond : ∀ j : Nat, bound ≤ j → ∀ element,
      lua.lookup table (.number (.finite j)) = .value element → element = .nil)
    (below : j ≤ bound) (enough : bound < j + rounds) :
    flagsReading rt lua table rounds j flags ≠ .endless := by
  induction rounds generalizing j flags with
  | zero => omega
  | succ rounds inductionHypothesis =>
      rw [flagsReading]
      cases found : lua.lookup table (.number (.finite j)) with
      | value element =>
          dsimp only
          split
          · intro ended
            cases ended
          · rename_i present
            have inside : j < bound := by
              by_contra outside
              have absent := beyond j (Nat.le_of_not_lt outside) element found
              exact present (by rw [absent]; rfl)
            split
            · intro ended
              cases ended
            · split
              · intro ended
                cases ended
              · exact inductionHypothesis inside (by omega)
      | call handler holder =>
          intro ended
          cases ended
      | error message =>
          intro ended
          cases ended

/-- With enough rounds every entry is read to its end. -/
theorem exists_bound (rt : Runtime) (lua : State) (entries : List Entry) :
    ∃ bound, ∀ fuel, bound ≤ fuel → ∀ entry ∈ entries, entryReading rt fuel lua entry ≠ .endless := by
  induction entries with
  | nil => exact ⟨0, fun _ _ _ member => absurd member List.not_mem_nil⟩
  | cons entry entries inductionHypothesis =>
      obtain ⟨bound, ends⟩ := inductionHypothesis
      obtain ⟨last, beyond⟩ : ∃ last : Nat, ∀ j : Nat, last ≤ j → ∀ element,
          lua.lookup entry.2 (.number (.finite j)) = .value element → element = .nil := by
        cases entry.2 with
        | hidden name =>
            obtain ⟨last, absent⟩ := (lua.hidden name).exists_bound
            refine ⟨last, fun j large element found => ?_⟩
            cases found
            exact absent j large
        | _ => exact lua.heap.exists_bound _ _
      refine ⟨max bound (last + 2), fun fuel enough => ?_⟩
      rw [List.forall_mem_cons]
      refine ⟨?_, ends fuel ((Nat.le_max_left _ _).trans enough)⟩
      have large : last + 2 ≤ fuel := (Nat.le_max_right _ _).trans enough
      have reads : flagsReading rt lua entry.2 fuel 1 0 ≠ .endless :=
        @flagsReading_ends rt lua entry.2 (last + 1) fuel 1 0
          (fun j far => beyond j (Nat.le_of_succ_le far)) (by omega) (by omega)
      unfold entryReading
      split
      · exact nofun
      · split <;> exact nofun
      · split <;> exact nofun
      · split
        · exact nofun
        · cases reading : flagsReading rt lua entry.2 fuel 1 0 with
          | endless => exact absurd reading reads
          | _ => exact nofun

end Flags

/-- A call of `server.register_function` whose argument has its entries in another order. -/
def registerReordered (rt : Runtime) (fuel : Nat) (world : World LoadHost) (addr : Addr)
    (table : Table) : Outcome LoadHost Unit :=
  luajitFunctionRegisterFunction rt fuel { world with lua := world.lua.withTable addr table }

/-- While a library is loaded, a table of named arguments is read in every order with the
same result, and nothing made for it is lost or freed twice, exactly when its entries are
safe. With enough rounds every loop over them comes to its end. -/
theorem register_orderSafe_iff (rt : Runtime) (raise : rt.MetamethodsRaise)
    (world : World LoadHost) (addr : Addr) (argument : world.frame = [.table addr])
    (loading : world.lua.registry registryLoadCtxName = .lightuserdata loadCtxPointer) :
    ∃ bound, ∀ fuel, bound ≤ fuel →
      (((∀ other : Table, other.Reorders (world.lua.heap.cells addr) →
          world.host.Settles (registerReordered rt fuel world addr other)) ∧
        ∀ other : Table, other.Reorders (world.lua.heap.cells addr) →
          registered (registerReordered rt fuel world addr other) =
            registered (luajitFunctionRegisterFunction rt fuel world)) ↔
      OrderSafe (entryReading rt fuel world.lua)
        (world.lua.heap.cells addr).entries.entries) := by
  obtain ⟨frame, base, breached, lua, host, calls⟩ := world
  obtain rfl : frame = [.table addr] := argument
  dsimp only at loading ⊢
  obtain ⟨bound, ends⟩ := exists_bound rt lua (lua.heap.cells addr).entries.entries
  refine ⟨max bound ((lua.heap.cells addr).entries.entries.length + 1), fun fuel enough => ?_⟩
  have large : bound ≤ fuel := (Nat.le_max_left _ _).trans enough
  have long : (lua.heap.cells addr).entries.entries.length < fuel :=
    (Nat.le_max_right _ _).trans enough
  have read (other : Table) (reorders : other.Reorders (lua.heap.cells addr)) :
      (readEntries (entryReading rt fuel lua) other.entries.entries
        (.start host.allocated)).Registers host
        (registerReordered rt fuel ⟨[.table addr], base, breached, lua, host, calls⟩ addr other) := by
    have cells : (lua.withTable addr other).heap.cells addr = other := Heap.write_self _ _ _
    have short : ((lua.withTable addr other).heap.cells addr).entries.entries.length < fuel := by
      rw [cells, reorders.entries.length_eq]
      exact long
    have ended := @register_reading rt fuel (lua.withTable addr other) raise addr short loading base
      breached host calls
    rwa [cells, entryReading_reorder reorders] at ended
  have own := @register_reading rt fuel lua raise addr long loading base breached host calls
  have holds (entries : List Entry) :
      (readEntries (entryReading rt fuel lua) entries (.start host.allocated)).Holds host.ledger :=
    holds_readEntries (ReadSoFar.holds_start host.ledger)
  have distinct : (lua.heap.cells addr).entries.entries.Nodup :=
    (lua.heap.cells addr).entries.nodupKeys.nodup
  rw [← orderSafe_iff distinct (ends fuel large) (ReadSoFar.blank_start host.allocated)]
  refine and_congr ⟨?_, ?_⟩ ⟨?_, ?_⟩
  · intro settles order same
    obtain ⟨other, reorders, rfl⟩ := Table.exists_reorder _ same
    exact (ArgsReading.settles_iff (holds _) (read other reorders)).mp (settles other reorders)
  · intro clean other reorders
    exact (ArgsReading.settles_iff (holds _) (read other reorders)).mpr (clean _ reorders.entries)
  · intro constant order same
    obtain ⟨other, reorders, rfl⟩ := Table.exists_reorder _ same
    have equal := constant other reorders
    rwa [ArgsReading.registered_eq (read other reorders), ArgsReading.registered_eq own] at equal
  · intro constant other reorders
    rw [ArgsReading.registered_eq (read other reorders), ArgsReading.registered_eq own]
    exact constant _ reorders.entries

/-- The scratch state in which a library hands over a table with these fields. -/
def namedLoad (fields : List (Value × Value)) : World LoadHost :=
  ⟨[.table 0], [], false,
    ⟨{ (default : Heap) with next := 1, cells := fun _ => .ofFields fields }, 0,
      fun _ => .lightuserdata loadCtxPointer, fun _ => .empty, none⟩, {}, []⟩

/-- A name and a callback are read alike in both orders, and nothing is lost. -/
theorem single_name_settles :
    ∃ bound, ∀ fuel, bound ≤ fuel → ∀ other : Table,
      other.Reorders (.ofFields [(.string (bytes "function_name"), .string (bytes "f")),
        (.string (bytes "callback"), .function (.closure 0))]) →
      LoadHost.Settles {} (registerReordered .plain fuel (namedLoad
        [(.string (bytes "function_name"), .string (bytes "f")),
          (.string (bytes "callback"), .function (.closure 0))]) 0 other) := by
  obtain ⟨bound, settles⟩ := register_orderSafe_iff .plain (fun _ _ _ _ => ⟨.nil, rfl⟩)
    (namedLoad [(.string (bytes "function_name"), .string (bytes "f")),
      (.string (bytes "callback"), .function (.closure 0))]) 0 rfl rfl
  refine ⟨bound, fun fuel enough => ((settles fuel enough).mpr ?_).1⟩
  let named : Entry := ⟨.string (bytes "function_name"), .string (bytes "f")⟩
  let called : Entry := ⟨.string (bytes "callback"), .function (.closure 0)⟩
  change OrderSafe (entryReading .plain fuel _) [called, named]
  generalize isReading : entryReading .plain fuel _ = reading
  have isName : reading named = .text .name (bytes "f") := by rw [← isReading]; rfl
  have isCallback : reading called = .callback := by rw [← isReading]; rfl
  have single : ∀ entry ∈ [called, named], ∀ other ∈ [called, named], ∀ field,
      (reading entry).Gives field → (reading other).Names field → other = entry := by
    simp [isName, isCallback, EntryReading.Gives, EntryReading.Names]
  refine ⟨⟨single, by simp [isName, isCallback]⟩, fun _ => ?_⟩
  simp [FlagsAgree, isName, isCallback]

/-- Of two keys that stand for the name the later one decides, and the string of the earlier
one is lost. -/
theorem doubled_name_leaks :
    ¬ LoadHost.Settles {} (luajitFunctionRegisterFunction .plain 4 (namedLoad
        [(.string (bytes "callback"), .function (.closure 0)),
          (.string (bytes "FUNCTION_NAME"), .string (bytes "g")),
          (.string (bytes "function_name"), .string (bytes "f"))])) ∧
      registered (luajitFunctionRegisterFunction .plain 4 (namedLoad
        [(.string (bytes "callback"), .function (.closure 0)),
          (.string (bytes "FUNCTION_NAME"), .string (bytes "g")),
          (.string (bytes "function_name"), .string (bytes "f"))])) =
        some (some (bytes "g"), none, 0) ∧
      registered (luajitFunctionRegisterFunction .plain 4 (namedLoad
        [(.string (bytes "callback"), .function (.closure 0)),
          (.string (bytes "function_name"), .string (bytes "f")),
          (.string (bytes "FUNCTION_NAME"), .string (bytes "g"))])) =
        some (some (bytes "f"), none, 0) := by
  refine ⟨?_, rfl, rfl⟩
  rintro ⟨pf, freed, functions, since⟩
  have owned : pf = ⟨0, some ⟨2, bytes "g"⟩, none, true, 0⟩ := (List.singleton_inj.mp functions).symm
  have none : freed = [] := since.released.symm
  have length := since.objects.length_eq
  rw [owned, none] at length
  exact absurd length (by decide)

end ValkeyLuajit
