import ValkeyLuajit.Function.Load
import ValkeyLuajit.Script.Encoding
import ValkeyLuajit.Script.TracedConversion

/-!
# Reserved slots of the conversions

`luajitReplyToServerReply` asks for four slots and uses no more before it recurses, so
it stays within what the stack promises for every value. `callReplyToLuaType` does so
for every reply without a tight set: a set asks for three slots, yet the `true` that
follows an element is the fifth, and an element of one slot does not ask for it.
-/

namespace ValkeyLuajit

open Lua Traced

/-- `LUA_MINSTACK`: the slots that are promised before any reservation. -/
def minStack : Nat := 20

/-!
### From a value to a reply
-/

section Values

variable {rt : Runtime} {slots bottom : Nat}

/-- A reply needs no slot. -/
theorem within_reply (token : Token) : Within slots bottom (Traced.reply token) fun _ => bottom :=
  within_step (fun _ => rfl) (fun _ start => start) (Nat.le_max_right ..)

/-- Nor does reading the bound of a loop. -/
theorem within_loopBound : Within slots bottom Traced.loopBound fun _ => bottom :=
  within_step (fun _ => rfl) (fun _ start => start) (Nat.le_max_right ..)

/-- What never ends normally, and pushes nothing. -/
theorem within_aborted {σ α : Type} (reason : String) (after : α → Nat) :
    Within (σ := σ) slots bottom (call fun world => .aborted reason world) after := by
  apply within_call
  · intro world start
    exact start.trans_le (Nat.le_max_right ..)
  · intro world value final _ ended
    cases ended

/-- Reply and drop what was replied with. -/
theorem within_reply_pop (token : Token) (count : Nat) :
    Within slots (bottom + count) (Traced.reply token >>= fun _ => Traced.luaPop count)
      fun _ => bottom :=
  within_bind (within_reply token) fun _ => within_pop count

/-- A field of an error needs one slot. -/
theorem within_readErrorField (field : String) (room : bottom + 1 ≤ slots) :
    Within slots bottom (Traced.readErrorField rt field) fun _ => bottom := by
  apply within_bind (within_getField rt (-1) field room)
  intro _
  apply within_bind (within_value (-1))
  intro found
  apply within_bind (within_pop 1)
  intro _
  exact within_pure rfl

/-- One slot is enough for all of them, one after the other. -/
theorem within_luajitExtractErrorInformation (room : bottom + 1 ≤ slots) :
    Within slots bottom (Traced.luajitExtractErrorInformation rt) fun _ => bottom := by
  apply within_bind (within_value (-1))
  intro top
  apply within_ite
  · intro _
    exact within_pure rfl
  · intro _
    iterate 3
      apply within_bind (within_readErrorField _ room)
      intro _
    apply within_bind (within_getField rt (-1) _ room)
    intro _
    apply within_bind (within_value (-1))
    intro _
    apply within_bind (within_pop 1)
    intro _
    exact within_pure rfl

/-- A test needs one slot, and what its outcomes need. -/
theorem within_onField (field : String) (type : LuaType) {handle : Value → Traced CallHost Unit}
    {otherwise : Traced CallHost Unit} (room : bottom + 2 ≤ slots)
    (found : ∀ value, Within slots (bottom + 2) (handle value) fun _ => bottom)
    (missing : Within slots (bottom + 1) otherwise fun _ => bottom) :
    Within slots (bottom + 1) (Traced.onField field type handle otherwise) fun _ => bottom := by
  apply within_bind (within_pushString field room)
  intro _
  apply within_bind (within_rawGet (-2))
  intro _
  apply within_bind (within_value (-1))
  intro value
  apply within_ite
  · intro _
    exact found value
  · intro _
    exact within_bind (within_pop 1) fun _ => missing

/-- Two slots are enough for an error. -/
theorem within_replyErrorTable (found : Value) (room : bottom + 2 ≤ slots) :
    Within slots (bottom + 2) (Traced.replyErrorTable rt found) fun _ => bottom := by
  apply within_bind (within_pop 1)
  intro _
  apply within_bind (within_luajitExtractErrorInformation room)
  intro info
  exact within_reply_pop _ 1

/-- Four slots above the table: the inner table, the format and the text fit. -/
theorem within_replyVerbatim {otherwise : Traced CallHost Unit} (room : bottom + 4 ≤ slots)
    (missing : Within slots (bottom + 1) otherwise fun _ => bottom) :
    Within slots (bottom + 1) (Traced.replyVerbatim otherwise) fun _ => bottom := by
  apply within_bind (within_pushString "verbatim_string" (by omega))
  intro _
  apply within_bind (within_rawGet (-2))
  intro _
  apply within_bind (within_value (-1))
  intro inner
  apply within_ite
  · intro _
    apply within_bind (within_pushString "format" (by omega))
    intro _
    apply within_bind (within_rawGet (-2))
    intro _
    apply within_bind (within_value (-1))
    intro format
    apply within_ite
    · intro _
      apply within_bind (within_pushString "string" room)
      intro _
      apply within_bind (within_rawGet (-3))
      intro _
      apply within_bind (within_value (-1))
      intro text
      apply within_ite
      · intro _
        exact within_reply_pop _ 4
      · intro _
        iterate 3
          apply within_bind (within_pop 1)
          intro _
        exact missing
    · intro _
      iterate 2
        apply within_bind (within_pop 1)
        intro _
      exact missing
  · intro _
    exact within_bind (within_pop 1) fun _ => missing

section Containers

variable {convert : Traced CallHost Unit}
  (each : ∀ below, Within slots (below + 1) convert fun _ => below)

include each

/-- The key is on the top; the next key, its value and a copy of the key are above. -/
theorem within_replyMapLoop (room : bottom + 3 ≤ slots) (fuel : Nat) :
    Within slots (bottom + 1) (Traced.replyMapLoop convert fuel) fun _ => bottom := by
  induction fuel with
  | zero => exact within_aborted _ _
  | succ fuel inductionHypothesis =>
      apply within_bind (within_next (-2) (by omega))
      intro more
      cases more with
      | false => exact within_pure rfl
      | true =>
          apply within_bind (within_pushValue (-2) room)
          intro _
          apply within_bind (each (bottom + 2))
          intro _
          apply within_bind (each (bottom + 1))
          intro _
          exact within_bind inductionHypothesis fun _ => within_pure rfl

/-- Two slots are enough for each element of a set. -/
theorem within_replySetLoop (room : bottom + 2 ≤ slots) (fuel : Nat) :
    Within slots (bottom + 1) (Traced.replySetLoop convert fuel) fun _ => bottom := by
  induction fuel with
  | zero => exact within_aborted _ _
  | succ fuel inductionHypothesis =>
      apply within_bind (within_next (-2) room)
      intro more
      cases more with
      | false => exact within_pure rfl
      | true =>
          apply within_bind (within_pop 1)
          intro _
          apply within_bind (within_pushValue (-1) room)
          intro _
          apply within_bind (each (bottom + 1))
          intro _
          exact within_bind inductionHypothesis fun _ => within_pure rfl

/-- One slot is enough for each element of an array. -/
theorem within_replyArrayLoop (room : bottom + 1 ≤ slots) (fuel j : Nat) :
    Within slots bottom (Traced.replyArrayLoop convert fuel j) fun _ => bottom := by
  induction fuel generalizing j with
  | zero => exact within_aborted _ _
  | succ fuel inductionHypothesis =>
      apply within_bind (within_push _ room)
      intro _
      apply within_bind (within_rawGet (-2))
      intro _
      apply within_bind (within_value (-1))
      intro element
      apply within_ite
      · intro _
        exact within_bind (within_pop 1) fun _ => within_pure rfl
      · intro _
        apply within_bind (each bottom)
        intro _
        exact within_bind (inductionHypothesis (j + 1)) fun _ => within_pure rfl

/-- Five slots are enough for a map. -/
theorem within_replyMap (room : bottom + 5 ≤ slots) (found : Value) :
    Within slots (bottom + 2) (Traced.replyMap convert found) fun _ => bottom := by
  apply within_bind (within_reply .openMap)
  intro _
  apply within_bind within_loopBound
  intro bound
  apply within_bind (within_push .nil (by omega))
  intro _
  apply within_bind (@within_replyMapLoop slots (bottom + 2) convert each room bound)
  intro maplen
  exact within_reply_pop _ 2

/-- Four slots are enough for a set. -/
theorem within_replySet (room : bottom + 4 ≤ slots) (found : Value) :
    Within slots (bottom + 2) (Traced.replySet convert found) fun _ => bottom := by
  apply within_bind (within_reply .openSet)
  intro _
  apply within_bind within_loopBound
  intro bound
  apply within_bind (within_push .nil (by omega))
  intro _
  apply within_bind (@within_replySetLoop slots (bottom + 2) convert each room bound)
  intro setlen
  exact within_reply_pop _ 2

/-- Two slots are enough for an array. -/
theorem within_replyArray (room : bottom + 2 ≤ slots) :
    Within slots (bottom + 1) (Traced.replyArray convert) fun _ => bottom := by
  apply within_bind (within_reply .openArray)
  intro _
  apply within_bind within_loopBound
  intro bound
  apply within_bind (within_replyArrayLoop each room bound 1)
  intro mbulklen
  exact within_reply_pop _ 1

/-- Five slots are enough for all the tests, of which a map needs most. -/
theorem within_replyTable (room : bottom + 5 ≤ slots) :
    Within slots (bottom + 1) (Traced.replyTable rt convert) fun _ => bottom := by
  have two : bottom + 2 ≤ slots := by omega
  apply within_onField "err" .string two fun found => within_replyErrorTable found two
  apply within_onField "ok" .string two fun found => within_reply_pop _ 2
  apply within_onField "double" .number two fun found => within_reply_pop _ 2
  apply within_onField "big_number" .string two fun found => within_reply_pop _ 2
  apply within_replyVerbatim (by omega)
  apply within_onField "map" .table two (within_replyMap each room)
  exact within_onField "set" .table two (within_replySet each (by omega)) (within_replyArray each two)

end Containers

/-- Whatever is promised when it starts, a conversion takes only promised slots: it asks
for four slots above the value before it takes any. -/
theorem within_luajitReplyToServerReply (resp fuel slots bottom : Nat) :
    Within slots (bottom + 1) (Traced.luajitReplyToServerReply rt resp fuel) fun _ => bottom := by
  induction fuel generalizing slots bottom with
  | zero => exact within_aborted _ _
  | succ fuel inductionHypothesis =>
      apply within_bind (within_value (-1))
      intro value
      apply within_checkStack
      · have room : bottom + 5 ≤ max slots (bottom + 1 + 4) := Nat.le_max_right ..
        cases value with
        | table | hidden => exact within_replyTable (inductionHypothesis _) room
        | _ => exact within_reply_pop _ 1
      · exact within_reply_pop _ 1

end Values

/-!
### From a reply to a value
-/

mutual

/-- The slots above the start that a whole conversion asks for. -/
def CallReply.reach : CallReply → Nat
  | .string _ | .integer _ | .null | .arrayNull | .bool _ => 1
  | .simpleString _ | .error _ | .double _ | .bigNumber _ => 3
  | .verbatim _ _ => 5
  | .array elements => 2 + elementsReach elements
  | .map entries => 3 + entriesReach entries
  | .set elements => 3 + elementsReach elements
  | .unknown => 0

/-- The most that one of the elements asks for. -/
def elementsReach : List CallReply → Nat
  | [] => 0
  | element :: rest => max element.reach (elementsReach rest)

/-- The most that one of the entries asks for; a value starts above its key. -/
def entriesReach : List (CallReply × CallReply) → Nat
  | [] => 0
  | (key, value) :: rest => max (max key.reach (1 + value.reach)) (entriesReach rest)

end

mutual

/-- No set that is converted is tight: started at this height with these slots promised,
each set finds the slot of `true` promised, or the element before it asks for it. What
comes after a fault is not converted. -/
def CallReply.Roomy (resp : Nat) : CallReply → Nat → Nat → Prop
  | .array elements, height, slots =>
      stackFault 2 height = none → elementsRoomy resp elements (height + 2) (max slots (height + 2))
  | .map entries, height, slots =>
      stackFault 3 height = none → entriesRoomy resp entries (height + 3) (max slots (height + 3))
  | .set elements, height, slots =>
      stackFault 3 height = none → keysRoomy resp elements (height + 3) (max slots (height + 3))
  | _, _, _ => True

/-- No set within the elements is tight. -/
def elementsRoomy (resp : Nat) : List CallReply → Nat → Nat → Prop
  | [], _, _ => True
  | element :: rest, height, slots => element.Roomy resp height slots ∧
      (element.fault resp height = none →
        elementsRoomy resp rest height (max slots (height + element.reach)))

/-- No set within the entries is tight. -/
def entriesRoomy (resp : Nat) : List (CallReply × CallReply) → Nat → Nat → Prop
  | [], _, _ => True
  | (key, value) :: rest, height, slots => key.Roomy resp height slots ∧
      (key.fault resp height = none →
        value.Roomy resp (height + 1) (max slots (height + key.reach)) ∧
        (value.fault resp (height + 1) = none → key.nilFault resp = none →
          entriesRoomy resp rest height
            (max (max slots (height + key.reach)) (height + 1 + value.reach))))

/-- Each element of a set leaves the slot of `true` promised. -/
def keysRoomy (resp : Nat) : List CallReply → Nat → Nat → Prop
  | [], _, _ => True
  | element :: rest, height, slots => element.Roomy resp height slots ∧
      (element.fault resp height = none →
        height + 2 ≤ max slots (height + element.reach) ∧
        (element.nilFault resp = none →
          keysRoomy resp rest height (max slots (height + element.reach))))

end

/-- The promise suffices for a conversion exactly when it is roomy; one that no fault
stops raises the promise to `reach`. -/
structure Measured {σ : Type} (slots : Nat) (trail : Trail σ Unit) (roomy : Prop)
    (fault : Option ConversionFault) (reach : Nat) : Prop where
  enough : Suffices slots trail.moments ↔ roomy
  reached : fault = none → promised slots trail.moments = max slots reach

namespace Measured

variable {σ : Type} {slots reach further : Nat} {roomy later : Prop}
  {fault others : Option ConversionFault} {first : Traced σ Unit} {next : Unit → Traced σ Unit}
  {start world : World σ} {trail : Trail σ Unit}

/-- The same in other words. -/
theorem congr (measured : Measured slots trail roomy fault reach) (same : roomy ↔ later)
    (top : max slots reach = max slots further) : Measured slots trail later fault further where
  enough := measured.enough.trans same
  reached := fun whole => (measured.reached whole).trans top

/-- A sequence whose first part ends as its fault says. -/
theorem bind {mid : World σ → Prop} (ends : EndsBy fault (first start).outcome start mid)
    (here : Measured slots (first start) roomy fault reach)
    (rest : ∀ world, mid world → fault = none →
      Measured (max slots reach) (next () world) later others further) :
    Measured slots ((first >>= next) start) (roomy ∧ (fault = none → later)) (fault.or others)
      (max reach further) := by
  match fault with
  | none =>
      obtain ⟨world, run, -, fits⟩ := ends
      have after := rest world fits rfl
      rw [bind_of_done run]
      constructor
      · rw [suffices_append, here.enough, here.reached rfl, after.enough]
        simp
      · intro whole
        rw [promised_append, here.reached rfl, after.reached whole, max_assoc]
  | some cause =>
      have stuck : ¬ (first start).outcome.IsDone := by
        cases cause with
        | nilIndex =>
            obtain ⟨final, run, -⟩ := ends
            simp [run, Outcome.IsDone]
        | stackLimit | unexpected =>
            obtain ⟨final, run⟩ := ends
            simp [run, Outcome.IsDone]
      constructor
      · rw [(bind_of_not_done stuck).1, here.enough]
        simp
      · simp

/-- One operation before it: a push must be within the promise. -/
theorem call {operation : LuaM σ Unit} (ends : operation start = .done () world)
    (rest : Measured slots (next () world) roomy fault reach) :
    Measured slots ((Traced.call operation >>= next) start)
      ((start.height < world.height → world.height ≤ slots) ∧ roomy) fault reach := by
  have run : (Traced.call operation start).outcome = .done () world := ends
  have moments : (Traced.call operation start).moments =
      if start.height < world.height then [.push world.height] else [] := by
    simp only [Traced.call, ends, Outcome.world_done]
  rw [bind_of_done run, moments]
  by_cases grows : start.height < world.height
  · rw [if_pos grows]
    refine ⟨?_, rest.reached⟩
    simp only [grows, forall_const]
    exact and_congr_right' rest.enough
  · rw [if_neg grows]
    refine ⟨?_, rest.reached⟩
    simp only [grows, false_imp_iff, true_and]
    exact rest.enough

/-- One operation that stays within the promise. -/
theorem call_within {operation : LuaM σ Unit} (ends : operation start = .done () world)
    (room : world.height ≤ max slots start.height)
    (rest : Measured slots (next () world) roomy fault reach) :
    Measured slots ((Traced.call operation >>= next) start) roomy fault reach := by
  refine (call ends rest).congr ?_ rfl
  apply and_iff_right
  intro grows
  omega

/-- A last operation that pushes nothing. -/
theorem last {operation : LuaM σ Unit}
    (low : ∀ world, (operation world).world.height ≤ world.height)
    (measured : Measured slots (first start) roomy fault reach) :
    Measured slots ((first >>= fun _ => Traced.call operation) start) roomy fault reach := by
  have quiet : ∀ world, (Traced.call operation world).moments = [] := by
    intro world
    exact if_neg (Nat.not_lt.mpr (low world))
  have same : ((first >>= fun _ => Traced.call operation) start).moments = (first start).moments := by
    by_cases normal : (first start).outcome.IsDone
    · cases ended : (first start).outcome with
      | done value mid => simp [bind_of_done ended, quiet]
      | raised error final => simp [ended, Outcome.IsDone] at normal
      | aborted reason final => simp [ended, Outcome.IsDone] at normal
    · exact (bind_of_not_done normal).1
  constructor
  · rw [same]
    exact measured.enough
  · rw [same]
    exact measured.reached

/-- Room on the stack is asked for first. -/
theorem require {extra : Nat} (rest : stackFault extra start.height = none →
      Measured (max slots (start.height + extra)) (next () start) roomy others further) :
    Measured slots ((Traced.requireStack extra >>= next) start)
      (stackFault extra start.height = none → roomy) ((stackFault extra start.height).or others)
      (max (start.height + extra) further) := by
  by_cases room : start.height + extra ≤ maxCStack
  · have fine : stackFault extra start.height = none := if_pos room
    have fits := luaCheckStack_fits room
    have checked : (Traced.luaCheckStack extra start).outcome = .done true start := by rw [fits]
    have asked : Traced.requireStack extra start =
        ⟨.done () start, [.reserve (start.height + extra)]⟩ := by
      rw [Traced.requireStack, bind_of_done checked, fits]
      rfl
    have run : (Traced.requireStack extra start).outcome = .done () start := by rw [asked]
    rw [bind_of_done run, asked, fine]
    constructor
    · simp only [forall_const]
      exact (rest fine).enough
    · intro whole
      rw [List.singleton_append, promised, (rest fine).reached whole, max_assoc]
  · have fault : stackFault extra start.height = some .stackLimit := if_neg room
    have full := luaCheckStack_full room
    have checked : (Traced.luaCheckStack extra start).outcome = .done false start := by rw [full]
    have asked : Traced.requireStack extra start = ⟨.aborted stackLimitPanic start, []⟩ := by
      rw [Traced.requireStack, bind_of_done checked, full]
      simp [Traced.serverPanic, Traced.call, ValkeyLuajit.serverPanic]
    have stuck : ¬ (Traced.requireStack extra start).outcome.IsDone := by
      rw [asked]
      exact id
    rw [fault]
    constructor
    · rw [(bind_of_not_done stuck).1, asked]
      simp
    · simp

/-- A leaf: the slots it asks for are those it uses. -/
theorem leaf {extra : Nat} {push : Traced σ Unit} {after : Unit → Nat}
    (within : Within (start.height + extra) start.height push after) (plain : Plain push) :
    Measured slots ((Traced.requireStack extra >>= fun _ => push) start) True
      (stackFault extra start.height) (start.height + extra) := by
  have inner : Measured (max slots (start.height + extra)) (push start) True none
      (start.height + extra) := by
    constructor
    · exact iff_true_intro ((within start rfl).1.mono (Nat.le_max_right ..))
    · intro _
      rw [(plain start).promised]
      omega
  have whole := @require σ slots (start.height + extra) True none (fun _ => push) start extra
    fun _ => inner
  rw [Option.or_none] at whole
  exact whole.congr (by simp) (by simp)

end Measured

section Conversion

variable {σ : Type} {rt : Runtime} {resp slots : Nat} (frame base : List Value) (breached : Bool)
  (lua : State) (host : σ) (calls : List (FuncRef × State))

/-- Converting this reply measures as its shape says. -/
def Reserves (σ : Type) (rt : Runtime) (resp : Nat) (reply : CallReply) : Prop :=
  ∀ (slots : Nat) (start : World σ),
    Measured slots (Traced.callReplyToLuaType rt resp reply start)
      (reply.Roomy resp start.height slots) (reply.fault resp start.height)
      (start.height + reply.reach)

/-- The traced conversion ends as the conversion does. -/
theorem tracedReply_ends (reply : CallReply) (start : World σ) :
    EndsBy (reply.fault resp start.height) (Traced.callReplyToLuaType rt resp reply start).outcome
      start (Pushes resp reply start) := by
  rw [traces_callReplyToLuaType]
  exact callReplyToLuaType_ends reply start

variable (rt) in
/-- A loop stores an entry and goes on, unless the key is nil. -/
theorem Measured.store {addr : Addr} {key value : Value} {keyFault fault : Option ConversionFault}
    {loop : Traced σ Unit} {roomy : Prop} {reach : Nat} (isKey : KeyFault keyFault key)
    (bare : (lua.heap.cells addr).metatable = none)
    (rest : Measured slots
      (loop ⟨.table addr :: frame, base, breached,
        { lua with heap := lua.heap.write addr ((lua.heap.cells addr).rawSet key value) },
        host, calls⟩) roomy fault reach) :
    Measured slots ((Traced.luaSetTable rt (-3) >>= fun _ => loop)
        ⟨value :: key :: .table addr :: frame, base, breached, lua, host, calls⟩)
      (keyFault = none → roomy) (keyFault.or fault) reach := by
  have stored : Lua.luaSetTable rt (-3)
      ⟨value :: key :: .table addr :: frame, base, breached, lua, host, calls⟩ = _ :=
    luaSetTable_bare frame base breached lua host calls bare
  obtain ⟨rfl, storable⟩ | ⟨rfl, rfl⟩ := isKey
  · rw [storeEntry_storable _ storable] at stored
    refine (Measured.call_within stored ?_ rest).congr (by simp) rfl
    simp only [World.height, List.length_cons]
    omega
  · have raised : (Traced.luaSetTable rt (-3)
        ⟨value :: .nil :: .table addr :: frame, base, breached, lua, host, calls⟩) =
        ⟨.raised (.string (bytes "table index is nil"))
          ⟨.table addr :: frame, base, breached, lua, host, calls⟩, []⟩ := by
      unfold Traced.luaSetTable Traced.call
      rw [stored]
      refine congrArg (Trail.mk _) (if_neg ?_)
      exact Nat.not_lt.mpr (Nat.le_add_right _ 2)
    have stuck : ¬ (Traced.luaSetTable rt (-3)
        ⟨value :: .nil :: .table addr :: frame, base, breached, lua, host, calls⟩).outcome.IsDone := by
      rw [raised]
      exact id
    constructor
    · rw [(bind_of_not_done stuck).1, raised]
      simp
    · simp

/-- The loop of a set: `true` takes the second slot above the table. -/
theorem setElementsToLua_measured {addr : Addr} {elements : List CallReply}
    (each : ∀ element ∈ elements, Reserves σ rt resp element)
    (bare : (lua.heap.cells addr).metatable = none) (present : addr < lua.heap.next)
    (low : frame.length + 1 ≤ slots) :
    Measured slots
      (Traced.setElementsToLua rt resp elements
        ⟨.table addr :: frame, base, breached, lua, host, calls⟩)
      (keysRoomy resp elements (frame.length + 1) slots)
      (keysFault resp elements (frame.length + 1))
      (frame.length + 1 + elementsReach elements) := by
  induction elements generalizing lua slots with
  | nil =>
      refine ⟨Iff.rfl, ?_⟩
      intro _
      exact (Nat.max_eq_left low).symm
  | cons element rest inductionHypothesis =>
      let height := frame.length + 1
      let promise := max slots (height + element.reach)
      let start : World σ := ⟨.table addr :: frame, base, breached, lua, host, calls⟩
      have convert : Measured slots (Traced.callReplyToLuaType rt resp element start)
        (element.Roomy resp height slots) (element.fault resp height) (height + element.reach) :=
        each element (by simp) slots start
      have goes : ∀ world, Pushes resp element start world → element.fault resp height = none →
          Measured promise
            ((Traced.luaPush (.boolean true) >>= fun _ => Traced.luaSetTable rt (-3) >>= fun _ =>
              Traced.setElementsToLua rt resp rest) world)
            (height + 2 ≤ promise ∧ (element.nilFault resp = none →
              keysRoomy resp rest height promise))
            ((element.nilFault resp).or (keysFault resp rest height))
            (height + elementsReach rest) := by
        rintro - ⟨key, heap, rfl, part, encodes⟩ -
        have bare' : (heap.cells addr).metatable = none := by
          rw [part.cells addr present (by simp), bare]
        have others := inductionHypothesis
          { lua with heap := heap.write addr ((heap.cells addr).rawSet key (.boolean true)) }
          (fun other member => each other (by simp [member])) (by simpa using bare')
          (present.trans_le part.next) (low.trans (Nat.le_max_left _ (height + element.reach)))
        have stores := Measured.store rt frame base breached { lua with heap := heap } host
          calls encodes.keyFault bare' others
        refine (Measured.call (luaPush_apply _ _) stores).congr ?_ rfl
        exact and_congr_left' (forall_prop_of_true (Nat.lt_succ_self (height + 1)))
      have ends : EndsBy (element.fault resp height)
          (Traced.callReplyToLuaType rt resp element start).outcome start
          (Pushes resp element start) := tracedReply_ends element start
      refine (Measured.bind ends convert goes).congr Iff.rfl ?_
      rw [elementsReach]
      omega

/-- The loop of an array: the index takes a slot that is promised. -/
theorem arrayElementsToLua_measured {addr : Addr} {elements : List CallReply}
    (each : ∀ element ∈ elements, Reserves σ rt resp element) {i : Nat}
    (bare : (lua.heap.cells addr).metatable = none) (present : addr < lua.heap.next)
    (low : frame.length + 2 ≤ slots) :
    Measured slots
      (Traced.arrayElementsToLua rt resp i elements
        ⟨.table addr :: frame, base, breached, lua, host, calls⟩)
      (elementsRoomy resp elements (frame.length + 2) slots)
      (elementsFault resp elements (frame.length + 2))
      (frame.length + 2 + elementsReach elements) := by
  induction elements generalizing lua slots i with
  | nil =>
      refine ⟨Iff.rfl, ?_⟩
      intro _
      exact (Nat.max_eq_left low).symm
  | cons element rest inductionHypothesis =>
      let height := frame.length + 2
      let start : World σ :=
        ⟨.number (.finite i) :: .table addr :: frame, base, breached, lua, host, calls⟩
      have convert : Measured slots (Traced.callReplyToLuaType rt resp element start)
        (element.Roomy resp height slots) (element.fault resp height) (height + element.reach) :=
        each element (by simp) slots start
      have ends : EndsBy (element.fault resp height)
          (Traced.callReplyToLuaType rt resp element start).outcome start
          (Pushes resp element start) := tracedReply_ends element start
      have goes : ∀ world, Pushes resp element start world → element.fault resp height = none →
          Measured (max slots (height + element.reach))
            ((Traced.luaSetTable rt (-3) >>= fun _ =>
              Traced.arrayElementsToLua rt resp (i + 1) rest) world)
            (elementsRoomy resp rest height (max slots (height + element.reach)))
            (elementsFault resp rest height) (height + elementsReach rest) := by
        rintro - ⟨value, heap, rfl, part, encodes⟩ -
        have bare' : (heap.cells addr).metatable = none := by
          rw [part.cells addr present (by simp), bare]
        have isKey : KeyFault none (.number (.finite i)) := .inl ⟨rfl, by simp⟩
        have others := inductionHypothesis
          { lua with
            heap := heap.write addr ((heap.cells addr).rawSet (.number (.finite i)) value) }
          (fun other member => each other (by simp [member])) (i := i + 1) (by simpa using bare')
          (present.trans_le part.next) (low.trans (Nat.le_max_left _ (height + element.reach)))
        exact (Measured.store rt frame base breached { lua with heap := heap } host calls
          isKey bare' others).congr (forall_prop_of_true rfl) rfl
      apply Measured.call_within (luaPush_apply _ _)
      · exact low.trans (Nat.le_max_left ..)
      · refine (Measured.bind ends convert goes).congr Iff.rfl ?_
        rw [elementsReach]
        omega

/-- The loop of a map: the value is converted above its key. -/
theorem mapEntriesToLua_measured {addr : Addr} {entries : List (CallReply × CallReply)}
    (each : ∀ entry ∈ entries, Reserves σ rt resp entry.1 ∧ Reserves σ rt resp entry.2)
    (bare : (lua.heap.cells addr).metatable = none) (present : addr < lua.heap.next)
    (low : frame.length + 1 ≤ slots) :
    Measured slots
      (Traced.mapEntriesToLua rt resp entries
        ⟨.table addr :: frame, base, breached, lua, host, calls⟩)
      (entriesRoomy resp entries (frame.length + 1) slots)
      (entriesFault resp entries (frame.length + 1))
      (frame.length + 1 + entriesReach entries) := by
  induction entries generalizing lua slots with
  | nil =>
      refine ⟨Iff.rfl, ?_⟩
      intro _
      exact (Nat.max_eq_left low).symm
  | cons entry rest inductionHypothesis =>
      obtain ⟨reserveKey, reserveValue⟩ := each entry (by simp)
      let height := frame.length + 1
      let early := max slots (height + entry.1.reach)
      let promise := max early (height + 1 + entry.2.reach)
      let start : World σ := ⟨.table addr :: frame, base, breached, lua, host, calls⟩
      have convertKey : Measured slots (Traced.callReplyToLuaType rt resp entry.1 start)
        (entry.1.Roomy resp height slots) (entry.1.fault resp height) (height + entry.1.reach) :=
        reserveKey slots start
      have keyEnds : EndsBy (entry.1.fault resp height)
          (Traced.callReplyToLuaType rt resp entry.1 start).outcome start
          (Pushes resp entry.1 start) := tracedReply_ends entry.1 start
      have goes : ∀ world, Pushes resp entry.1 start world → entry.1.fault resp height = none →
          Measured early
            ((Traced.callReplyToLuaType rt resp entry.2 >>= fun _ =>
              Traced.luaSetTable rt (-3) >>= fun _ => Traced.mapEntriesToLua rt resp rest) world)
            (entry.2.Roomy resp (height + 1) early ∧ (entry.2.fault resp (height + 1) = none →
              entry.1.nilFault resp = none → entriesRoomy resp rest height promise))
            ((entry.2.fault resp (height + 1)).or
              ((entry.1.nilFault resp).or (entriesFault resp rest height)))
            (max (height + 1 + entry.2.reach) (height + entriesReach rest)) := by
        rintro - ⟨key, heap, rfl, partKey, encodesKey⟩ -
        let above : World σ :=
          ⟨key :: .table addr :: frame, base, breached, { lua with heap := heap }, host, calls⟩
        have convertValue : Measured early (Traced.callReplyToLuaType rt resp entry.2 above)
          (entry.2.Roomy resp (height + 1) early) (entry.2.fault resp (height + 1))
          (height + 1 + entry.2.reach) := reserveValue early above
        have valueEnds : EndsBy (entry.2.fault resp (height + 1))
            (Traced.callReplyToLuaType rt resp entry.2 above).outcome above
            (Pushes resp entry.2 above) := tracedReply_ends entry.2 above
        apply Measured.bind valueEnds convertValue
        rintro - ⟨value, last, rfl, partValue, -⟩ -
        have part := partKey.trans partValue
        have bare' : (last.cells addr).metatable = none := by
          rw [part.cells addr present (by simp), bare]
        have stays : frame.length + 1 ≤ promise :=
          (low.trans (Nat.le_max_left ..)).trans (Nat.le_max_left early _)
        have others := inductionHypothesis
          { lua with heap := last.write addr ((last.cells addr).rawSet key value) }
          (fun other member => each other (by simp [member])) (by simpa using bare')
          (present.trans_le part.next) stays
        exact Measured.store rt frame base breached { lua with heap := last } host calls
          encodesKey.keyFault bare' others
      refine (Measured.bind keyEnds convertKey goes).congr Iff.rfl ?_
      rw [entriesReach]
      omega

/-- A table that a loop fills, wrapped in a table with one field: three slots. -/
theorem Measured.wrapped {field : String} {loop : Traced σ Unit} {roomy : Prop}
    {fault : Option ConversionFault} {reach : Nat} {start : World σ}
    (filled : Measured (max slots (start.height + 3)) (loop (insideWrapper field start)) roomy fault
      reach) :
    Measured slots
      ((Traced.requireStack 3 >>= fun _ => do
        Traced.luaNewTable
        Traced.luaPushString field
        Traced.luaNewTable
        loop
        Traced.luaSetTable rt (-3)) start)
      (stackFault 3 start.height = none → roomy) ((stackFault 3 start.height).or fault)
      (max (start.height + 3) reach) := by
  have room (extra : Nat) (less : extra ≤ 3) (low : Nat) :
      start.height + extra ≤ max (max slots (start.height + 3)) low := by omega
  apply Measured.require
  intro _
  apply Measured.call_within (luaNewTable_apply _) (room 1 (by omega) _)
  apply Measured.call_within (luaPushString_apply _ _) (room 2 (by omega) _)
  apply Measured.call_within (luaNewTable_apply _) (room 3 (by omega) _)
  apply Measured.last _ filled
  intro world
  rw [luaSetTable_height]
  exact Nat.sub_le ..

/-- A table with one field needs three slots. -/
theorem within_pushFieldTable (field : String) (content : Value) {before : Nat}
    (room : before + 3 ≤ slots) :
    Within (σ := σ) slots before (Traced.pushFieldTable rt field content)
      fun _ => before + 1 := by
  apply within_bind (within_newTable (by omega))
  intro _
  apply within_bind (within_pushString field (by omega))
  intro _
  apply within_bind (within_push content room)
  intro _
  exact within_setTable rt (-3)

/-- It reserves none of them. -/
theorem plain_pushFieldTable (field : String) (content : Value) :
    Plain (σ := σ) (Traced.pushFieldTable rt field content) :=
  plain_bind (plain_call _) fun _ => plain_bind (plain_call _) fun _ =>
    plain_bind (plain_call _) fun _ => plain_call _

/-- The table of an error is filled field by field, two slots above it. -/
theorem within_errorTable (text : Bytes) {before : Nat} (room : before + 3 ≤ slots) :
    Within (σ := σ) slots before
      (do
        Traced.luajitPushErrorBuff rt text
        Traced.luaPushString "ignore_error_stats_update"
        Traced.luaPush (.boolean true)
        Traced.luaSetTable rt (-3))
      fun _ => before + 1 := by
  apply within_bind (within_pushFieldTable "err" (.string (errorBuffText text)) room)
  intro _
  apply within_bind (within_pushString _ (by omega))
  intro _
  apply within_bind (within_push _ room)
  intro _
  exact within_setTable rt (-3)

/-- The format and the text of a verbatim string are the fourth and fifth slot. -/
theorem within_verbatim (text : Bytes) (format : VerbatimFormat) {before : Nat}
    (room : before + 5 ≤ slots) :
    Within (σ := σ) slots before
      (do
        Traced.luaNewTable
        Traced.luaPushString "verbatim_string"
        Traced.luaNewTable
        Traced.luaPushString "string"
        Traced.luaPush (.string text)
        Traced.luaSetTable rt (-3)
        Traced.luaPushString "format"
        Traced.luaPush (.string format.text)
        Traced.luaSetTable rt (-3)
        Traced.luaSetTable rt (-3))
      fun _ => before + 1 := by
  apply within_bind (within_newTable (by omega))
  intro _
  apply within_bind (within_pushString _ (by omega))
  intro _
  apply within_bind (within_newTable (by omega))
  intro _
  apply within_bind (within_pushString _ (by omega))
  intro _
  apply within_bind (within_push _ room)
  intro _
  apply within_bind (within_setTable rt (-3))
  intro _
  apply within_bind (within_pushString _ (by omega))
  intro _
  apply within_bind (within_push _ room)
  intro _
  apply within_bind (within_setTable rt (-3))
  intro _
  exact within_setTable rt (-3)

/-- A conversion stays within the promise exactly when no set in the reply is tight. -/
theorem callReplyToLuaType_measured (reply : CallReply) : Reserves σ rt resp reply := by
  induction reply with
  | string | integer | bool | null | arrayNull =>
      intro slots start
      exact .leaf (within_push _ (Nat.le_refl _)) (plain_call _)
  | simpleString | double | bigNumber =>
      intro slots start
      exact .leaf (within_pushFieldTable _ _ (Nat.le_refl _)) (plain_pushFieldTable _ _)
  | error text =>
      intro slots start
      refine .leaf (within_errorTable text (Nat.le_refl _)) ?_
      apply plain_bind (plain_pushFieldTable "err" (.string (errorBuffText text)))
      intro _
      exact plain_bind (plain_call _) fun _ => plain_bind (plain_call _) fun _ => plain_call _
  | verbatim text format =>
      intro slots start
      refine .leaf (within_verbatim text format (Nat.le_refl _)) ?_
      iterate 9
        apply plain_bind (plain_call _)
        intro _
      exact plain_call _
  | array elements each =>
      rintro slots ⟨frame, base, breached, lua, host, calls⟩
      let height := frame.length
      have room : height + 2 ≤ max slots (height + 2) := Nat.le_max_right ..
      have filled := arrayElementsToLua_measured frame base breached
        { lua with heap := lua.heap.alloc .empty } host calls each (i := 1) (by simp)
        (Nat.lt_succ_self lua.heap.next) room
      have asked := @Measured.require σ slots _ _ _
        (fun _ => Traced.luaNewTable >>= fun _ => Traced.arrayElementsToLua rt resp 1 elements)
        ⟨frame, base, breached, lua, host, calls⟩ 2 fun _ =>
        Measured.call_within (luaNewTable_apply _)
          ((Nat.le_succ _).trans (room.trans (Nat.le_max_left ..))) filled
      refine asked.congr Iff.rfl ?_
      change max slots (max (height + 2) (height + 2 + elementsReach elements)) =
        max slots (height + (2 + elementsReach elements))
      omega
  | map entries each =>
      intro slots start
      have low : start.height + 3 ≤ max slots (start.height + 3) := Nat.le_max_right ..
      have bare : ((Heap.allocTwo start.lua.heap).cells (start.lua.heap.next + 1)).metatable = none := by
        rw [Heap.allocTwo_inner, Table.empty_metatable]
      have filled := mapEntriesToLua_measured (.string (bytes "map") :: .table start.lua.heap.next ::
        start.frame) start.base start.breached { start.lua with heap := Heap.allocTwo start.lua.heap }
        start.host start.metaCalls each bare (Nat.lt_succ_self _) low
      refine (Measured.wrapped filled).congr Iff.rfl ?_
      change max slots (max (start.height + 3) (start.height + 3 + entriesReach entries)) =
        max slots (start.height + (3 + entriesReach entries))
      omega
  | set elements each =>
      intro slots start
      have low : start.height + 3 ≤ max slots (start.height + 3) := Nat.le_max_right ..
      have bare : ((Heap.allocTwo start.lua.heap).cells (start.lua.heap.next + 1)).metatable = none := by
        rw [Heap.allocTwo_inner, Table.empty_metatable]
      have filled := setElementsToLua_measured (.string (bytes "set") :: .table start.lua.heap.next ::
        start.frame) start.base start.breached { start.lua with heap := Heap.allocTwo start.lua.heap }
        start.host start.metaCalls each bare (Nat.lt_succ_self _) low
      refine (Measured.wrapped filled).congr Iff.rfl ?_
      change max slots (max (start.height + 3) (start.height + 3 + elementsReach elements)) =
        max slots (start.height + (3 + elementsReach elements))
      omega
  | unknown =>
      intro slots start
      refine ⟨?_, nofun⟩
      exact iff_true_intro (within_aborted "0" (fun _ => 0) start rfl).1

end Conversion

/-- After any reservations, a conversion of a value takes only promised slots, and a
conversion of a reply does exactly when no set in it is tight. -/
theorem promise_suffices_iff (σ : Type) (rt : Runtime) (resp : Nat) (earlier : List Moment) :
    (∀ (value : Value) (start : World CallHost) (fuel : Nat),
      Suffices (promised minStack earlier)
        (Traced.luajitReplyToServerReply rt resp fuel (start.push value)).moments) ∧
    ∀ (reply : CallReply) (start : World σ),
      Suffices (promised minStack earlier) (Traced.callReplyToLuaType rt resp reply start).moments ↔
        reply.Roomy resp start.height (promised minStack earlier) := by
  constructor
  · intro value start fuel
    exact (within_luajitReplyToServerReply resp fuel _ start.height (start.push value) rfl).1
  · intro reply start
    exact (callReplyToLuaType_measured reply (promised minStack earlier) start).enough

/-- A set of one number inside eight arrays takes the 21st slot of 20 for its `true`. -/
theorem nested_set_exceeds : ¬ ∀ (rt : Runtime) (resp : Nat) (earlier : List Moment)
    (reply : CallReply) (start : World Unit), Suffices (promised minStack earlier)
      (Traced.callReplyToLuaType rt resp reply start).moments := by
  intro suffices_always
  have enough := suffices_always .plain 3 []
    ((fun inner => CallReply.array [inner])^[8] (.set [.integer 1]))
    ⟨[], [], false, luaLNewstate, (), []⟩
  rw [promised_nil, (callReplyToLuaType_measured _ _ _).enough] at enough
  simp [CallReply.Roomy, elementsRoomy, keysRoomy, CallReply.fault, CallReply.reach, stackFault,
    minStack, maxCStack, World.height] at enough

end ValkeyLuajit
