import ValkeyLuajit.Library.InputMachine
import ValkeyLuajit.Sandbox.Environment

/-!
# What scripts get hold of

A script starts with the table of globals and gets hold of more by reading fields,
making tables and closures, loading code and calling functions. In a user's states it
never gets hold of a function that was taken away, whatever it does and however long
it runs; in the scratch state nothing was taken away.
-/

namespace ValkeyLuajit.Sandbox

open Lua

/-- What the scripts of a state hold, what tables hold, and the code that was loaded. -/
structure Holdings where
  tables : Tables
  known : List Item
  loaded : List Bytes

/-- One thing a script does. -/
inductive Deed where
  /-- Read a field. The metatable of strings counts as a field of a string. -/
  | read (table : Item) (key : String)
  /-- Store something in a field, or clear it. -/
  | store (table : Item) (key : String) (value : Option Item)
  /-- Make a table or a closure. -/
  | make (id : Nat)
  /-- Call a function that gives this, or raises it. -/
  | call (function result : Item)
  /-- Have code loaded that comes in pieces, under a mode. -/
  | load (loader : Item) (pieces : List Bytes) (mode : Option Bytes)

/-- LuaJIT tells a binary chunk by its first byte, ESC. -/
def isBinary (code : Bytes) : Bool := code.head? = some 27

/-- The mode allows chunks of this kind: `b` stands for binary, `t` for text. -/
def modeAllows (mode : Option Bytes) (code : Bytes) : Bool :=
  match mode with
  | none => true
  | some mode => mode.contains (if isBinary code then 98 else 116)

/-- The mode under which a function has code loaded. The wrapper puts its own. -/
def loadMode (mode : Option Bytes) : Item → Option (Option Bytes)
  | .builtin "" "load" => some mode
  | .builtin "" "loadstring" => some mode
  | .wrappedLoad => some (some (bytes "t"))
  | _ => none

/-- The code becomes a function. -/
def accepts (rt : Runtime) (mode : Option Bytes) (code : Bytes) : Bool :=
  modeAllows mode code && (rt.syntaxError code).isNone

/-- What a state's preparation takes away from scripts: the deny list, the original
loaders, and the debug library with its functions. -/
def Guarded : Item → Prop
  | .builtin library name => library = "" ∧ name ∈ denyList ++ ["load", "loadstring"] ∨
      library = "debug"
  | .library name => name = "debug"
  | _ => False

/-- What the code says is removed: the functions of the deny list and the debug library. -/
def Denied : Item → Prop
  | .builtin library name => library = "" ∧ name ∈ denyList
  | .library name => name = "debug"
  | _ => False

theorem guarded_of_denied {item : Item} (denied : Denied item) : Guarded item := by
  cases item with
  | builtin library name => exact .inl ⟨denied.1, List.mem_append_left _ denied.2⟩
  | library name => exact denied
  | _ => exact denied

/-- Nothing comes along with it. -/
inductive Harmless : Item → Prop
  | plain : Harmless .plain
  | made (id : Nat) : Harmless (.made id)
  | builtin {library name : String} : ¬ Guarded (.builtin library name) →
      Harmless (.builtin library name)

theorem Harmless.not_guarded {item : Item} (harmless : Harmless item) : ¬ Guarded item := by
  cases harmless with
  | plain => exact id
  | made id => exact fun guarded => guarded
  | builtin unguarded => exact unguarded

/-- LuaJIT's functions keep to what they are given: except for those that are taken
away, they give and raise what their caller can reach anyway, or nothing of interest. -/
def LuaLibraries.Confined (libs : LuaLibraries) : Prop :=
  ∀ library name tables known result, ¬ Guarded (.builtin library name) →
    libs.gives library name tables known result →
      Harmless result ∨ Fields.Reaches tables known result

/-- What calling a function can give or raise. A closure of a script and a function of
the module give what the caller holds or something new. -/
def Gives (libs : LuaLibraries) (holdings : Holdings) (result : Item) : Item → Prop
  | .builtin library name => libs.gives library name holdings.tables holdings.known result
  | .made _ | .native _ | .wrappedLoad | .errorHandler =>
      result ∈ holdings.known ∨ Harmless result
  | _ => False

/-- A script does what it can with what it holds. -/
def Holdings.Admits (libs : LuaLibraries) (holdings : Holdings) : Deed → Prop
  | .read table _ => table ∈ holdings.known
  | .store table _ value => table ∈ holdings.known ∧ ∀ item, value = some item →
      item ∈ holdings.known
  | .make _ => True
  | .call function result => function ∈ holdings.known ∧ Gives libs holdings result function
  | .load loader _ mode => loader ∈ holdings.known ∧ (loadMode mode loader).isSome = true

/-- What it holds then. -/
def Holdings.step (rt : Runtime) (holdings : Holdings) : Deed → Holdings
  | .read table key => { holdings with
      known := (holdings.tables table key).toList ++ holdings.known }
  | .store table key value => { holdings with tables := holdings.tables.set table key value }
  | .make id => { holdings with known := .made id :: holdings.known }
  | .call _ result => { holdings with known := result :: holdings.known }
  | .load loader pieces mode => match loadMode mode loader with
      | some mode =>
          if accepts rt mode pieces.flatten then
            { holdings with
              known := .made 0 :: holdings.known
              loaded := pieces.flatten :: holdings.loaded }
          else holdings
      | none => holdings

/-- The scripts of a state, one deed after the other. -/
def machine (libs : LuaLibraries) (rt : Runtime) : InputMachine Holdings Deed :=
  ⟨Holdings.Admits libs, Holdings.step rt⟩

/-- A fresh state gives its scripts the table of globals, and strings. -/
def Holdings.initial (libs : LuaLibraries) (enableFfiApi : Bool) (kind : StateKind) : Holdings :=
  ⟨initialTables libs enableFfiApi kind, [globals, .plain], []⟩

/-- Nothing guarded is held, and no table a script may hold has something guarded in it. -/
structure Holdings.Confined (holdings : Holdings) : Prop where
  known : ∀ item ∈ holdings.known, ¬ Guarded item
  tables : holdings.tables.ClosedIn fun item => ¬ Guarded item

/-- What is reached from confined holdings is not guarded. -/
theorem Holdings.Confined.reaches {holdings : Holdings} (confined : holdings.Confined) {item : Item}
    (reaches : Fields.Reaches holdings.tables holdings.known item) : ¬ Guarded item := by
  have inside := Fields.Reaches.within confined.tables confined.known reaches
  exact inside

section Steps

variable {libs : LuaLibraries} {rt : Runtime} {holdings : Holdings}

/-- A new item that is not guarded may be held. -/
theorem Holdings.Confined.learn (confined : holdings.Confined) {item : Item}
    (harmless : ¬ Guarded item) (loaded : List Bytes) :
    Holdings.Confined ⟨holdings.tables, item :: holdings.known, loaded⟩ where
  known := by
    intro other member
    rcases List.mem_cons.mp member with rfl | old
    · exact harmless
    · exact confined.known other old
  tables := confined.tables

/-- Calls give nothing guarded. -/
theorem Holdings.Confined.gives (confined : holdings.Confined) (keeps : libs.Confined)
    {function result : Item} (held : function ∈ holdings.known)
    (gives : Gives libs holdings result function) : ¬ Guarded result := by
  have other (either : result ∈ holdings.known ∨ Harmless result) : ¬ Guarded result := by
    rcases either with held | harmless
    · exact confined.known result held
    · exact harmless.not_guarded
  cases function with
  | builtin library name =>
      rcases keeps library name _ _ result (confined.known _ held) gives with harmless | reaches
      · exact harmless.not_guarded
      · exact confined.reaches reaches
  | made id => exact other gives
  | native name => exact other gives
  | wrappedLoad => exact other gives
  | errorHandler => exact other gives
  | _ => exact gives.elim

/-- No deed breaks out. -/
theorem Holdings.Confined.step (confined : holdings.Confined) (keeps : libs.Confined) (deed : Deed)
    (admitted : holdings.Admits libs deed) : (holdings.step rt deed).Confined := by
  cases deed with
  | read table key =>
      refine ⟨?_, confined.tables⟩
      intro item member
      rcases List.mem_append.mp member with new | old
      · exact confined.tables table key item (confined.known _ admitted)
          (Option.mem_toList.mp new)
      · exact confined.known item old
  | store table key value =>
      refine ⟨confined.known, confined.tables.set fun item _ same => ?_⟩
      exact confined.known item (admitted.2 item same)
  | make id => exact confined.learn (Harmless.made id).not_guarded _
  | call function result => exact confined.learn (confined.gives keeps admitted.1 admitted.2) _
  | load loader pieces mode =>
      simp only [Holdings.step]
      split
      · split
        · exact confined.learn (Harmless.made 0).not_guarded _
        · exact confined
      · exact confined

end Steps

section Preparation

variable {libs : LuaLibraries} {tables : Tables} {names : List String}

/-- Outside the debug library, something guarded is held by the globals at most, under
one of these names. -/
def OnlyUnder (names : List String) (tables : Tables) : Prop :=
  ∀ holder key value, ¬ Guarded holder → tables holder key = some value → Guarded value →
    holder = globals ∧ key ∈ names

/-- What is stored is not guarded. -/
def Unguarded (value : Option Item) : Prop := ∀ item, value = some item → ¬ Guarded item

theorem unguarded_some {item : Item} (free : ¬ Guarded item) : Unguarded (some item) := by
  rintro other ⟨⟩
  exact free

theorem unguarded_none : Unguarded none := by
  rintro item ⟨⟩

namespace OnlyUnder

theorem mono {more : List String} (only : OnlyUnder names tables)
    (within : ∀ name ∈ names, name ∈ more) : OnlyUnder more tables := by
  intro holder key value outside found guarded
  obtain ⟨isGlobals, listed⟩ := only holder key value outside found guarded
  exact ⟨isGlobals, within key listed⟩

/-- Storing something else keeps it so. -/
theorem set {holder : Item} {key : String} {value : Option Item} (only : OnlyUnder names tables)
    (free : Unguarded value) : OnlyUnder names (tables.set holder key value) := by
  intro other name item outside found guarded
  unfold Fields.set at found
  split at found
  · exact absurd guarded (free item found)
  · exact only other name item outside found guarded

/-- Storing something else in a global clears its name. -/
theorem setGlobal (name : String) {value : Option Item} (only : OnlyUnder names tables)
    (free : Unguarded value) :
    OnlyUnder (names.filter (· ≠ name)) (luaSetGlobal tables name value) := by
  intro other key item outside found guarded
  unfold luaSetGlobal Fields.set at found
  split at found
  · exact absurd guarded (free item found)
  · rename_i apart
    obtain ⟨isGlobals, listed⟩ := only other key item outside found guarded
    refine ⟨isGlobals, List.mem_filter.mpr ⟨listed, ?_⟩⟩
    simpa [isGlobals] using apart

/-- Clearing globals clears their names. -/
theorem removeGlobals (removed : List String) (only : OnlyUnder names tables) :
    OnlyUnder (names.filter (· ∉ removed))
      (removed.foldl (fun tables name => luaSetGlobal tables name none) tables) := by
  induction removed generalizing tables names with
  | nil => simpa using only
  | cons name rest ih =>
      refine (ih (only.setGlobal name unguarded_none)).mono ?_
      intro other listed
      simp only [List.mem_filter, decide_eq_true_eq] at listed ⊢
      exact ⟨listed.1.1, by simp [listed.1.2, listed.2]⟩

theorem setPlain (holder : Item) (keys : List String) (only : OnlyUnder names tables) :
    OnlyUnder names (setPlain holder keys tables) := by
  induction keys generalizing tables with
  | nil => exact only
  | cons key rest ih => exact ih (only.set (unguarded_some id))

theorem setNatives (holder : Item) (functions : List (String × String))
    (only : OnlyUnder names tables) : OnlyUnder names (setNatives holder functions tables) := by
  induction functions generalizing tables with
  | nil => exact only
  | cons function rest ih => exact ih (only.set (unguarded_some id))

/-- The base library brings what is taken away later. -/
theorem registerBase (only : OnlyUnder [] tables) :
    OnlyUnder (denyList ++ ["load", "loadstring"]) (registerLibrary libs "" tables) := by
  intro holder key value outside found guarded
  unfold registerLibrary at found
  split at found
  · rename_i here
    cases found
    rcases guarded with ⟨-, listed⟩ | debug
    · exact ⟨here.1, listed⟩
    · simp at debug
  · simpa using only holder key value outside found guarded

/-- The functions of other libraries are not guarded, those of `debug` apart, whose table is. -/
theorem register {name : String} (base : name ≠ "") (only : OnlyUnder names tables) :
    OnlyUnder names (registerLibrary libs name tables) := by
  intro holder key value outside found guarded
  unfold registerLibrary at found
  split at found
  · rename_i here
    cases found
    rcases guarded with ⟨isBase, -⟩ | debug
    · exact absurd isBase base
    · exact absurd (here.1 ▸ debug) outside
  · exact only holder key value outside found guarded

theorem luaopen {name : String} (apart : name ∉ ["", "debug"]) (only : OnlyUnder names tables) :
    OnlyUnder names (luaopen libs name tables) := by
  obtain ⟨base, debug⟩ : name ≠ "" ∧ name ≠ "debug" := by simpa using apart
  exact (only.register base).set (unguarded_some debug)

/-- The table of the debug library becomes a global. -/
theorem luaopenDebug (only : OnlyUnder names tables) :
    OnlyUnder ("debug" :: names) (Sandbox.luaopen libs "debug" tables) := by
  have registered : OnlyUnder names (registerLibrary libs "debug" tables) :=
    only.register (by decide)
  intro holder key value outside found guarded
  unfold Sandbox.luaopen luaSetGlobal Fields.set at found
  split at found
  · rename_i here
    exact ⟨here.1, by simp [here.2]⟩
  · obtain ⟨isGlobals, listed⟩ := registered holder key value outside found guarded
    exact ⟨isGlobals, List.mem_cons_of_mem _ listed⟩

theorem luaopenBase (only : OnlyUnder [] tables) :
    OnlyUnder (denyList ++ ["load", "loadstring"]) (luaopenBase libs tables) := by
  have table : ¬ Guarded globals := by simp [Guarded, globals]
  have coroutine : ¬ Guarded (.library "coroutine") := by simp [Guarded]
  exact (((only.registerBase.set (unguarded_some table)).set (unguarded_some id)).register
    (by decide)).set (unguarded_some coroutine)

theorem luaopenString (only : OnlyUnder names tables) :
    OnlyUnder names (luaopenString libs tables) := by
  have string : ¬ Guarded (.library "string") := by simp [Guarded]
  exact ((only.luaopen (by decide)).set (unguarded_some string)).set (unguarded_some id)

theorem loadStandardLibraries (only : OnlyUnder [] tables) :
    OnlyUnder ("debug" :: denyList ++ ["load", "loadstring"])
      (loadStandardLibraries libs tables) :=
  ((only.luaopenBase.luaopen (by decide)).luaopenString.luaopen (by decide)).luaopenDebug.luaopen
    (by decide)

theorem replaceOs (only : OnlyUnder names tables) : OnlyUnder names (replaceOs tables) := by
  refine (only.set ?_).set (unguarded_some id)
  intro item found guarded
  have here := only (.library "os") "clock" item (by simp [Guarded]) found guarded
  simp [globals] at here

theorem loadBundledLibraries (only : OnlyUnder names tables) :
    OnlyUnder names (loadBundledLibraries libs tables) :=
  (((((only.luaopen (by decide)).luaopen (by decide)).luaopen (by decide)).luaopen
    (by decide)).luaopen (by decide)).luaopen (by decide)

/-- The loaders disappear behind the wrapper. -/
theorem luajitWrapLoadFunction (only : OnlyUnder names tables) :
    OnlyUnder ((names.filter (· ≠ "load")).filter (· ≠ "loadstring"))
      (luajitWrapLoadFunction tables) :=
  (only.setGlobal "load" (unguarded_some id)).setGlobal "loadstring" (unguarded_some id)

theorem luajitRegisterLogFunction (only : OnlyUnder names tables) :
    OnlyUnder names (luajitRegisterLogFunction tables) :=
  (only.setNatives _ _).setPlain _ _

theorem luajitRegisterVersion (only : OnlyUnder names tables) :
    OnlyUnder names (luajitRegisterVersion tables) :=
  only.setPlain _ _

/-- The deny list is cleared. -/
theorem luajitRegisterServerAPI (only : OnlyUnder [] tables) :
    OnlyUnder ["debug"] (luajitRegisterServerAPI libs tables) := by
  have removed : OnlyUnder ["debug"] (luajitRemoveUnsafeGlobals (luajitLoadLibraries libs tables)) :=
    only.loadStandardLibraries.replaceOs.loadBundledLibraries.luajitWrapLoadFunction.removeGlobals
      denyList
  exact ((((((removed.setNatives _ _).setNatives _ _).luajitRegisterLogFunction
    |>.luajitRegisterVersion).setNatives _ _).setPlain _ _).set (unguarded_some id)).set
      (unguarded_some id) |>.setNatives _ _

/-- Nothing guarded is left once the error handler has taken `debug`. -/
theorem luajitStateInstallErrorHandler (only : OnlyUnder ["debug"] tables) :
    OnlyUnder [] (luajitStateInstallErrorHandler tables) :=
  only.setGlobal "debug" unguarded_none

theorem luajitLoadFFI (only : OnlyUnder names tables) :
    OnlyUnder names (luajitLoadFFI libs tables) :=
  (((only.luaopen (by decide)).luaopen (by decide)).setNatives _ _).luaopen (by decide)

end OnlyUnder

/-- A user's states are prepared so that nothing guarded is within reach. -/
theorem initialTables_onlyUnder (enableFfiApi : Bool) {kind : StateKind} (user : kind ≠ .scratch) :
    OnlyUnder [] (initialTables libs enableFfiApi kind) := by
  have empty : OnlyUnder [] fun _ _ => none := by
    rintro holder key value - ⟨⟩
  have prepared : OnlyUnder [] (luajitStateInstallErrorHandler
      (luajitRegisterServerAPI libs fun _ _ => none)) :=
    empty.luajitRegisterServerAPI.luajitStateInstallErrorHandler
  cases kind with
  | scratch => exact absurd rfl user
  | eval =>
      have extras : OnlyUnder [] (initializeEvalExtras _) :=
        ((prepared.setNatives _ _).set (unguarded_some id)).set (unguarded_some id)
      simp only [initialTables]
      split
      · exact extras.luajitLoadFFI
      · exact extras
  | function =>
      simp only [initialTables]
      split
      · exact prepared.luajitLoadFFI.setNatives _ _
      · exact prepared.setNatives _ _

/-- So their scripts start confined. -/
theorem Holdings.initial_confined (enableFfiApi : Bool) {kind : StateKind}
    (user : kind ≠ .scratch) : (Holdings.initial libs enableFfiApi kind).Confined where
  known := by
    intro item member
    rcases List.mem_pair.mp member with rfl | rfl
    · simp [Guarded, globals]
    · exact id
  tables := by
    intro holder key value outside found guarded
    have here := initialTables_onlyUnder enableFfiApi user holder key value outside found guarded
    simpa using here.2

end Preparation

section Runs

variable {libs : LuaLibraries} {rt : Runtime} {enableFfiApi : Bool} {kind : StateKind}

/-- They stay confined, whatever they do. -/
theorem confined_throughout (keeps : libs.Confined) (user : kind ≠ .scratch) {deeds : List Deed}
    (run : (machine libs rt).Run (.initial libs enableFfiApi kind) deeds) :
    (machine libs rt).Visits Holdings.Confined (.initial libs enableFfiApi kind) deeds :=
  run.visits (fun _ deed confined admitted _ => confined.step keeps deed admitted)
    (Holdings.initial_confined enableFfiApi user) (run.mono fun _ _ _ => trivial)

/-- Nothing that is said to be removed can be reached from what a script holds. -/
def Holdings.Clear (holdings : Holdings) : Prop :=
  ∀ item, Fields.Reaches holdings.tables holdings.known item → ¬ Denied item

end Runs

/-- The globals that `luajitInitFunctionScratchState` sets itself. -/
def scratchGlobals : List String :=
  ["_G", "_VERSION", "coroutine", "string", "table", "server", "redis"]

/-- The scratch state leaves the other functions of the base library where they are. -/
theorem scratch_holds (libs : LuaLibraries) (enableFfiApi : Bool) {name : String}
    (other : name ∉ scratchGlobals) (member : name ∈ libs.members "") :
    initialTables libs enableFfiApi .scratch globals name = some (.builtin "" name) := by
  simp only [scratchGlobals, List.mem_cons, List.not_mem_nil, or_false, not_or] at other
  obtain ⟨g, version, coroutine, string, table, server, redis⟩ := other
  simp [initialTables, luajitInitFunctionScratchState, luajitRegisterVersion,
    luajitRegisterLogFunction, setPlain, setNatives, luaopen, luaopenString, luaopenBase,
    registerLibrary, luaSetGlobal, Fields.set, globals, member, g, version, coroutine, string,
    table, server, redis]

/-- Scripts of a state of this kind never reach what is said to be removed exactly when
the state is one of a user's. -/
theorem clear_throughout_iff (libs : LuaLibraries) (rt : Runtime) (keeps : libs.Confined)
    (opens : ∃ name ∈ denyList, name ∈ libs.members "") (kind : StateKind) :
    (∀ deeds, (machine libs rt).Run (.initial libs false kind) deeds →
      (machine libs rt).Visits Holdings.Clear (.initial libs false kind) deeds) ↔
        kind ≠ .scratch := by
  constructor
  · rintro clear rfl
    obtain ⟨name, denied, member⟩ := opens
    have other : name ∉ scratchGlobals := by
      intro set
      have apart : ∀ removed ∈ denyList, removed ∉ scratchGlobals := by decide
      exact apart name denied set
    have held := scratch_holds libs false other member
    refine (clear [] trivial).first (.builtin "" name) ?_ ⟨rfl, denied⟩
    exact .field (.root (by simp [Holdings.initial])) held
  · intro user deeds run
    have confined : (machine libs rt).Visits Holdings.Confined (.initial libs false kind) deeds :=
      confined_throughout keeps user run
    exact confined.mono fun holdings confined item reaches denied =>
      confined.reaches reaches (guarded_of_denied denied)

/-- Libraries with a few functions that give what their caller holds, or a value of no
interest. -/
def fewLibraries : LuaLibraries where
  members
    | "" => ["print", "type", "load", "loadstring"]
    | "debug" => ["getinfo"]
    | "os" => ["clock"]
    | _ => []
  gives _ _ _ known result := result = .plain ∨ result ∈ known

theorem fewLibraries_confined : fewLibraries.Confined := by
  rintro library name tables known result - (rfl | held)
  · exact .inl .plain
  · exact .inr (.root held)

/-- A library that is being loaded can call `print`. -/
theorem scratch_reaches_print :
    (machine fewLibraries .plain).Run (.initial fewLibraries false .scratch)
        [.read globals "print"] ∧
      ¬ (machine fewLibraries .plain).Visits Holdings.Clear
        (.initial fewLibraries false .scratch) [.read globals "print"] := by
  refine ⟨⟨by simp [machine, Holdings.Admits, Holdings.initial], trivial⟩, ?_⟩
  rintro ⟨clear, -⟩
  refine clear (.builtin "" "print") ?_ ⟨rfl, by decide⟩
  exact .field (.root List.mem_cons_self)
    (scratch_holds fewLibraries false (by decide) (by simp [fewLibraries]))

/-- An EVAL script that looks for it finds nothing. -/
theorem eval_finds_no_print :
    (machine fewLibraries .plain).Visits Holdings.Clear (.initial fewLibraries false .eval)
      [.read globals "print"] := by
  refine (clear_throughout_iff fewLibraries .plain fewLibraries_confined
    ⟨"print", by decide, by simp [fewLibraries]⟩ .eval).mpr (by decide) _ ⟨?_, trivial⟩
  simp [machine, Holdings.Admits, Holdings.initial]

end ValkeyLuajit.Sandbox
