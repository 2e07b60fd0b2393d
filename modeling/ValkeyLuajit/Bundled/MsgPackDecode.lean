import ValkeyLuajit.Bundled.MsgPackEncode

/-!
# Decoding MessagePack to Lua values

`lua_cmsgpack.c`: the cursor over the input and the decoder. What the C code leaves on the top
of the stack is returned here, and `room` counts the slots that the stack has left. An error
that the cursor keeps ends every function at once, so it ends the computation.
-/

namespace ValkeyLuajit

open Lua

/-- The errors of a cursor. -/
inductive MpCurError where
  /-- `MP_CUR_ERROR_EOF`. -/
  | eof
  /-- `MP_CUR_ERROR_BADFMT`. -/
  | badfmt
deriving DecidableEq

/-- What keeps the decoder from a value. -/
inductive MpFault where
  | cursor (error : MpCurError)
  | stop (reason : MpStop)
deriving DecidableEq

/-- `mp_cur`: `p` is a place in the string that is decoded. -/
structure MpCur where
  s : Block
  p : Nat
  left : Nat

/-- `mp_cur_need`. -/
def mpCurNeed (c : MpCur) (len : Nat) : Except MpFault Unit :=
  if c.left < len then .error (.cursor .eof) else .ok ()

/-- `mp_cur_consume`. -/
def mpCurConsume (c : MpCur) (len : Nat) : MpCur :=
  { c with p := c.p + len, left := (c.left + (2 ^ 64 - len)) % 2 ^ 64 }

/-- The bytes `c->p[i]` and on. -/
def MpCur.read (c : MpCur) (i len : Nat) : Except MpFault Bytes :=
  match c.s.loadRange (c.p + i : Nat) len with
  | none => .error (.stop .outside)
  | some bytes => .ok bytes

/-- What the first byte of a value says. A `width` is that of the number which follows. -/
inductive MpHead where
  | integer (n : Int)
  | unsigned (width : Nat)
  | signed (width : Nat)
  | nil
  | boolean (value : Bool)
  | float
  | double
  | fixRaw (l : Nat)
  | raw (width : Nat)
  | raw32
  | fixArray (l : Nat)
  | array (width : Nat)
  | fixMap (l : Nat)
  | map (width : Nat)
  | unknown
deriving DecidableEq

/-- The cases of the switch in `mp_decode_to_lua_type`. -/
def mpHead (tag : UInt8) : MpHead :=
  match tag.toNat with
  | 0xcc => .unsigned 1
  | 0xd0 => .signed 1
  | 0xcd => .unsigned 2
  | 0xd1 => .signed 2
  | 0xce => .unsigned 4
  | 0xd2 => .signed 4
  | 0xcf => .unsigned 8
  | 0xd3 => .signed 8
  | 0xc0 => .nil
  | 0xc3 => .boolean true
  | 0xc2 => .boolean false
  | 0xca => .float
  | 0xcb => .double
  | 0xd9 => .raw 1
  | 0xda => .raw 2
  | 0xdb => .raw32
  | 0xdc => .array 2
  | 0xdd => .array 4
  | 0xde => .map 2
  | 0xdf => .map 4
  | n =>
      if n &&& 0x80 = 0 then .integer n
      else if n &&& 0xe0 = 0xe0 then .integer (n - 256)
      else if n &&& 0xe0 = 0xa0 then .fixRaw (n &&& 0x1f)
      else if n &&& 0xf0 = 0x90 then .fixArray (n &&& 0xf)
      else if n &&& 0xf0 = 0x80 then .fixMap (n &&& 0xf)
      else .unknown

/-- A value that is decoded, with the heap and the cursor after it. -/
structure MpDecoded where
  value : Value
  heap : Heap
  c : MpCur

/-- `lua_settable` on a table. -/
def mpSetTable (heap : Heap) (addr : Addr) (key value : Value) : Except MpFault Heap :=
  match heap.newIndex (.table addr) key with
  | .raw target =>
      if key.storable then .ok (heap.write target ((heap.cells target).rawSet key value))
      else .error (.stop (.raised (bytes
        (if key.isNil then "table index is nil" else "table index is NaN"))))
  | .call handler _ => .error (.stop (.script handler))
  | .error message => .error (.stop (.raised message))

section

variable (decodeKey decodeValue : Heap → MpCur → Except MpFault MpDecoded)

/-- The loop of `mp_decode_to_lua_array`. -/
def mpDecodeElements (addr : Addr) : (len index : Nat) → Heap → MpCur → Except MpFault (Heap × MpCur)
  | 0, _, heap, c => .ok (heap, c)
  | len + 1, index, heap, c => do
      let decoded ← decodeValue heap c
      let heap ← mpSetTable decoded.heap addr (.number (.finite index)) decoded.value
      mpDecodeElements addr len (index + 1) heap decoded.c

/-- `mp_decode_to_lua_array`: the index lies between the table and an element. -/
def mpDecodeToLuaArray (room len : Nat) (heap : Heap) (c : MpCur) : Except MpFault MpDecoded :=
  if room - 1 < 1 then .error (.stop (stackOverflow "in function mp_decode_to_lua_array"))
  else do
    let (after, c) ← mpDecodeElements decodeValue heap.next len 1 (heap.alloc .empty) c
    .ok ⟨.table heap.next, after, c⟩

/-- The loop of `mp_decode_to_lua_hash`. -/
def mpDecodeEntries (addr : Addr) : (len : Nat) → Heap → MpCur → Except MpFault (Heap × MpCur)
  | 0, heap, c => .ok (heap, c)
  | len + 1, heap, c => do
      let key ← decodeKey heap c
      let value ← decodeValue key.heap key.c
      let heap ← mpSetTable value.heap addr key.value value.value
      mpDecodeEntries addr len heap value.c

/-- `mp_decode_to_lua_hash`: the key lies between the table and its value. -/
def mpDecodeToLuaHash (len : Nat) (heap : Heap) (c : MpCur) : Except MpFault MpDecoded := do
  let (after, c) ← mpDecodeEntries decodeKey decodeValue heap.next len (heap.alloc .empty) c
  .ok ⟨.table heap.next, after, c⟩

/-- The number behind the first byte, of so many bytes. -/
def MpCur.count (c : MpCur) (width : Nat) : Except MpFault Nat := do
  mpCurNeed c (1 + width)
  let number ← c.read 1 width
  .ok (ofBigEndian number)

/-- A branch of the switch. -/
def mpDecodeHead (room : Nat) (heap : Heap) (c : MpCur) : MpHead → Except MpFault MpDecoded
  | .integer n => .ok ⟨.number (toLuaNumber n), heap, mpCurConsume c 1⟩
  | .unsigned width => do
      let n ← c.count width
      .ok ⟨.number (toLuaNumber ((n : Int).bmod (2 ^ 64))), heap, mpCurConsume c (1 + width)⟩
  | .signed width => do
      let n ← c.count width
      .ok ⟨.number (toLuaNumber ((n : Int).bmod (256 ^ width))), heap, mpCurConsume c (1 + width)⟩
  | .nil => .ok ⟨.nil, heap, mpCurConsume c 1⟩
  | .boolean flag => .ok ⟨.boolean flag, heap, mpCurConsume c 1⟩
  | .float => do
      let f ← c.count 4
      .ok ⟨.number (Interchange.single.datum f).number, heap, mpCurConsume c 5⟩
  | .double => do
      let d ← c.count 8
      .ok ⟨.number (Interchange.double.datum d).number, heap, mpCurConsume c 9⟩
  | .fixRaw l => do
      mpCurNeed c (1 + l)
      let text ← c.read 1 l
      .ok ⟨.string text, heap, mpCurConsume c (1 + l)⟩
  | .raw width => do
      let l ← c.count width
      mpCurNeed c (1 + width + l)
      let text ← c.read (1 + width) l
      .ok ⟨.string text, heap, mpCurConsume c (1 + width + l)⟩
  | .raw32 => do
      let l ← c.count 4
      let c := mpCurConsume c 5
      mpCurNeed c l
      let text ← c.read 0 l
      .ok ⟨.string text, heap, mpCurConsume c l⟩
  | .fixArray l => mpDecodeToLuaArray decodeValue room l heap (mpCurConsume c 1)
  | .array width => do
      let l ← c.count width
      mpDecodeToLuaArray decodeValue room l heap (mpCurConsume c (1 + width))
  | .fixMap l => mpDecodeToLuaHash decodeKey decodeValue l heap (mpCurConsume c 1)
  | .map width => do
      let l ← c.count width
      mpDecodeToLuaHash decodeKey decodeValue l heap (mpCurConsume c (1 + width))
  | .unknown => .error (.cursor .badfmt)

/-- The message of the decoder when the stack is full. -/
def tooManyValues : String :=
  "too many return values at once; use unpack_one or unpack_limit instead."

/-- `mp_decode_to_lua_type`, with what decodes a key and what decodes an element. -/
def mpDecodeWith (room : Nat) (heap : Heap) (c : MpCur) : Except MpFault MpDecoded := do
  mpCurNeed c 1
  if room < 1 then .error (.stop (stackOverflow tooManyValues))
  else match c.s.load c.p with
    | none => .error (.stop .outside)
    | some tag => mpDecodeHead decodeKey decodeValue room heap c (mpHead tag)

end

/-- `mp_decode_to_lua_type`. A key has the table below it, an element the key as well, so the
stack is what ends the recursion. -/
def mpDecodeToLuaType : (room : Nat) → Heap → MpCur → Except MpFault MpDecoded
  | 0 => mpDecodeWith (fun _ _ => .error (.cursor .eof)) (fun _ _ => .error (.cursor .eof)) 0
  | 1 => mpDecodeWith (mpDecodeToLuaType 0) (mpDecodeToLuaType 0) 1
  | room + 2 => mpDecodeWith (mpDecodeToLuaType (room + 1)) (mpDecodeToLuaType room) (room + 2)

/-- `INT_MAX`. -/
def intMax : Int := 2 ^ 31 - 1

/-- `%d` of a `lua_Integer` that is cast to `int`. -/
def formatInt (n : Int) : String := toString (n.bmod (2 ^ 32))

/-- What `mp_unpack_full` makes of an error. -/
def MpFault.reason : MpFault → MpStop
  | .cursor .eof => .raised (bytes "Missing bytes in input.")
  | .cursor .badfmt => .raised (bytes "Bad data format in input.")
  | .stop reason => reason

/-- The values that the loop of `mp_unpack_full` left on the stack. -/
structure MpUnpacked where
  values : List Value
  heap : Heap
  c : MpCur

/-- The loop of `mp_unpack_full`. Each value takes a slot. -/
def mpUnpackLoop (limit : Int) : (room cnt : Nat) → Heap → MpCur → Except MpFault MpUnpacked
  | 0, cnt, heap, c =>
      if 0 < c.left ∧ cnt < limit then do
        let _ ← mpDecodeToLuaType 0 heap c
        .ok ⟨[], heap, c⟩
      else .ok ⟨[], heap, c⟩
  | room + 1, cnt, heap, c =>
      if 0 < c.left ∧ cnt < limit then do
        let decoded ← mpDecodeToLuaType (room + 1) heap c
        let rest ← mpUnpackLoop limit room (cnt + 1) decoded.heap decoded.c
        .ok { rest with values := decoded.value :: rest.values }
      else .ok ⟨[], heap, c⟩

/-- `mp_unpack_full` on a string, with so many slots above the arguments. -/
def mpUnpackFull (s : Bytes) (heap : Heap) (room : Nat) (limit offset : Int) :
    Except MpStop (List Value × Heap) :=
  let decodeAll := limit = 0 ∧ offset = 0
  if offset < 0 ∨ limit < 0 then
    .error (.raised (bytes ("Invalid request to unpack with offset of " ++ formatInt offset ++
      " and limit of " ++ formatInt s.length ++ ".")))
  else if (s.length : Int) < offset then
    .error (.raised (bytes ("Start offset " ++ formatInt offset ++
      " greater than input length " ++ formatInt s.length ++ ".")))
  else do
    let limit := if decodeAll then intMax else limit
    let c : MpCur := ⟨s, offset.toNat, s.length - offset.toNat⟩
    let unpacked ← (mpUnpackLoop limit room 0 heap c).mapError MpFault.reason
    if decodeAll then .ok (unpacked.values, unpacked.heap)
    else
      let newOffset := s.length - unpacked.c.left
      if 2 ^ 63 - 1 < newOffset then .error .aborted
      else if room < unpacked.values.length + 1 then
        .error (stackOverflow "in function mp_unpack_full")
      else
        let next : Int := if unpacked.c.left = 0 then -1 else newOffset
        .ok (.number (toLuaNumber next) :: unpacked.values, unpacked.heap)

/-- `mp_unpack`, with so many arguments besides the string. -/
def mpUnpack (s : Bytes) (heap : Heap) (others : Nat) : Except MpStop (List Value × Heap) :=
  mpUnpackFull s heap (maxCStack - (1 + others)) 0 0

/-- `mp_unpack_one`. -/
def mpUnpackOne (s : Bytes) (heap : Heap) (offset : Int) : Except MpStop (List Value × Heap) :=
  mpUnpackFull s heap (maxCStack - 1) 1 offset

/-- `mp_unpack_limit`. -/
def mpUnpackLimit (s : Bytes) (heap : Heap) (limit offset : Int) :
    Except MpStop (List Value × Heap) :=
  mpUnpackFull s heap (maxCStack - 1) limit offset

end ValkeyLuajit
