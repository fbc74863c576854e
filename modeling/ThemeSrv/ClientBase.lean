import ThemeSrv.AllocatedBlock
import ThemeSrv.KeystreamCipher
import ThemeSrv.LittleEndianBytes
import ThemeSrv.ProtocolMessages
import ThemeSrv.Socket

/-!
# The message codec

`client_base` moves messages between their memory image and the encrypted
byte stream of a non-blocking socket.  Memory is a set of allocated blocks;
an access outside of its block stops the program, as a failed assertion and
an uncaught `bad_alloc` do.  The loops of the source that need not end take a
fuel argument, and running out of it is one more way to stop: a loop that does
not return runs on, or `alloca` in its body takes stack until there is none.
-/

namespace ThemeSrv

open AllocatedBlock ByteString KeystreamCipher

/-- Why an execution does not return. -/
inductive Stop
  | assertion
  | nullStruct
  | load
  | store
  | copy
  | badAlloc
  | brokenPipe
  | fuel
  deriving DecidableEq, Repr

/-- How stateful code ends; the state at a stop is kept. -/
inductive Outcome (State Value : Type)
  | done (value : Value) (state : State)
  | stopped (stop : Stop) (state : State)

/-- `THEME_ASSERTD`. -/
def assertD (condition : Bool) : Except Stop Unit :=
  if condition then .ok () else .error .assertion

/-- Largest object `operator new[]` hands out. -/
def maxObject : Nat := 2 ^ 63

/-- `INT_MAX`: the cipher takes its lengths as `int`. -/
def intMax : Nat := 2 ^ 31 - 1

/-! ### Connection state -/

/-- `io_state` as the reader uses it. -/
structure ReadState where
  struct : Option NetStruct
  field : Nat
  offset : Nat
  bufsz : Nat
  buf : Option Bytes
  deriving DecidableEq, Repr

/-- `io_state` as the writer uses it; `m_bufsz` is the length of the
buffer. -/
structure WriteState where
  bufoffs : Nat
  buf : Bytes
  deriving DecidableEq, Repr

/-- Record of one `enqueue_write` call: the descriptor it was given, the
plain bytes it encrypted, and the buffer it handed to the socket. -/
structure Posted where
  struct : NetStruct
  plain : Bytes
  wire : Bytes
  deriving DecidableEq, Repr

structure ClientBase where
  sock : Socket
  read : ReadState
  writes : List WriteState
  encrypt : Context
  decrypt : Context
  posted : List Posted

namespace ClientBase

/-- The constructor: both directions start with the null cipher. -/
def new (sock : Socket) : ClientBase where
  sock := sock
  read := ⟨none, 0, 0, 0, none⟩
  writes := []
  encrypt := .keyed fun _ => 0
  decrypt := .keyed fun _ => 0
  posted := []

def shutdown (c : ClientBase) : ClientBase :=
  { c with sock := c.sock.shutdown }

def hasPendingRead (c : ClientBase) : Bool :=
  c.read.struct.isSome

def hasPendingWrite (c : ClientBase) : Bool :=
  !c.writes.isEmpty

/-- `read(ns)`. -/
def readStruct (c : ClientBase) (ns : NetStruct) : ClientBase :=
  { c with read := { c.read with struct := some ns } }

/-- `read(ns, field, buf)`: go on in a buffer that was handed out before. -/
def readFrom (c : ClientBase) (ns : NetStruct) (field : Nat) (buf : Bytes) : ClientBase :=
  { c with read := { c.read with struct := some ns, field := field, buf := some buf } }

def setCryptKey (c : ClientBase) (rc4 : Bytes → Nat → UInt8) (key : Bytes) : ClientBase :=
  { c with encrypt := .keyed (rc4 key), decrypt := .keyed (rc4 key) }

end ClientBase

/-! ### Field sizes -/

/-- A pointer into an allocated block. -/
structure Pointer where
  block : Bytes
  position : Nat

/-- `extract_integer`, whose endian conversions make it read little-endian on
either host. -/
def extractInteger (field : NetField) (ptr : Pointer) : Except Stop Nat :=
  match field.elementsz with
  | 1 | 2 | 4 | 8 =>
      match load ptr.block ptr.position field.elementsz with
      | some bytes => .ok (leValue bytes)
      | none => .error .load
  | _ => .error .assertion

/-- `extract_elementcount`.  `ptr` points to the buffer field. -/
def extractElementcount (szField bufField : NetField) (ptr : Pointer) : Except Stop Nat := do
  assertD (szField.type == .bufferSize)
  assertD (szField.count == 1)
  if ptr.position < szField.elementsz then
    throw .load
  let result ← extractInteger szField ⟨ptr.block, ptr.position - szField.elementsz⟩
  let result ←
    -- redundant buffers include the size of the size parameter in their size
    if bufField.type == .bufferRedundant then do
      assertD (szField.elementsz % bufField.elementsz == 0)
      pure (sizeT (result + sizeMod - szField.elementsz / bufField.elementsz))
    else
      pure result
  return if result > kMaxBufCount then sizeMax else result

/-- The tuple `calc_field_sz` returns. -/
structure FieldSz where
  known : Bool
  alloc : Nat
  wire : Nat
  deriving DecidableEq, Repr

def calcFieldSz (ns : NetStruct) (field : Nat) (buf : Option Pointer) : Except Stop FieldSz :=
  match ns.fields[field]? with
  | none => .error .assertion
  | some curField =>
      if curField.type.isVariable then do
        -- these fields must be the last one in the struct
        assertD (!curField.type.isBuffer || field + 1 == ns.size)
        match ns.previous? field with
        | none => throw .assertion
        | some szField =>
            let alloc := sizeT (curField.elementsz * curField.count)
            match buf with
            | some ptr =>
                let count ← extractElementcount szField curField ptr
                return ⟨true, alloc, sizeT (curField.elementsz * count)⟩
            | none =>
                -- the wire size is counted once the prefix has been read
                return ⟨false, alloc, 0⟩
      else
        .ok ⟨true, sizeT (curField.elementsz * curField.count),
          sizeT (curField.elementsz * curField.count)⟩

/-! ### Buffers -/

/-- `alloc_buf`: a zeroed block, with the old one copied to its front. -/
def allocBuf (buf : Option Bytes) (bufsz requestsz : Nat) (exact : Bool) : Except Stop Bytes :=
  let newsz := if exact then requestsz else sizeT ((requestsz / 8 + 4) * 8)
  if maxObject ≤ newsz then
    .error .badAlloc
  else
    match buf with
    | none => .ok (List.replicate newsz 0)
    | some old =>
        match load old 0 bufsz with
        | none => .error .copy
        | some cells =>
            match store (List.replicate newsz 0) 0 cells with
            | none => .error .copy
            | some block => .ok block

/-! ### Reading -/

/-- First loop of `resume_read`: memory and wire size of the first `count`
fields, which have been read. -/
def sizeBefore (ns : NetStruct) (buf : Option Bytes) : Nat → Except Stop (Nat × Nat)
  | 0 => .ok (0, 0)
  | count + 1 => do
      let (memsz, wiresz) ← sizeBefore ns buf count
      let result ← calcFieldSz ns count (buf.map (Pointer.mk · memsz))
      assertD result.known
      return (sizeT (memsz + result.alloc), sizeT (wiresz + result.wire))

/-- What the second loop of `resume_read` has added up. -/
structure ReadPlan where
  fixedsz : Bool
  allocsz : Nat
  readsz : Nat
  deriving DecidableEq, Repr

/-- Second loop of `resume_read`, from field `index` over `left` fields.
`none` when a request is too large. -/
def planFields (ns : NetStruct) (ptr : Option Pointer) (first : Nat) :
    Nat → Nat → ReadPlan → Except Stop (Option ReadPlan)
  | _, 0, plan => .ok (some plan)
  | index, left + 1, plan => do
      -- only the prefix of the first field has been read for certain
      let sizes ← calcFieldSz ns index (if index = first then ptr else none)
      if sizes.wire = sizeMax then
        return none
      let fixedsz := plan.fixedsz && sizes.known
      planFields ns ptr first (index + 1) left
        { fixedsz := fixedsz
          allocsz := sizeT (plan.allocsz + sizes.alloc)
          readsz := if fixedsz then sizeT (plan.readsz + sizes.wire) else plan.readsz }

/-- What the inner loop of `resume_read` leaves behind. -/
structure Consumed where
  complete : Bool
  field : Nat
  offset : Nat
  block : Bytes
  decrypt : Context

/-- Inner loop of `resume_read`: decrypt the received bytes field by field
into the message buffer.  `left` bounds the number of fields to go. -/
def consume (ns : NetStruct) :
    Nat → Nat → Nat → Nat → Bytes → Context → Bytes → Except Stop Consumed
  | 0, _, _, _, _, _, _ => .error .assertion
  | left + 1, field, offset, mempos, block, decrypt, input => do
      let sizes ← calcFieldSz ns field (some ⟨block, mempos⟩)
      assertD sizes.known
      -- one `read` transfers less than `intMax` bytes
      let chunk := input.take sizes.wire
      match store block (mempos + offset) (decrypt.output chunk) with
      | none => throw .store
      | some block =>
          let decrypt := decrypt.feed chunk
          let input := input.drop sizes.wire
          if chunk.length < sizes.wire then
            assertD input.isEmpty
            return ⟨false, field, offset + chunk.length, block, decrypt⟩
          else if field + 1 = ns.size then
            assertD input.isEmpty
            return ⟨true, field + 1, offset, block, decrypt⟩
          else
            consume ns left (field + 1) 0 (mempos + offset + sizes.alloc) block decrypt input

/-- The largest buffer of a read that is taken off the stack. -/
def kMaxStackBufSize : Nat := 2048

/-- The stack that `alloca` takes for a read.  It is given back when
`resume_read` returns, not at the end of a turn. -/
def stackBuf (readsz : Nat) : Nat :=
  if readsz ≤ kMaxStackBufSize then readsz else 0

/-- How one turn of the outer loop of `resume_read` ends. -/
inductive Turn
  | returned (complete : Bool)
  | again
  deriving DecidableEq, Repr

/-- The part of a turn that asks the socket for `readsz > 0` bytes. -/
def receive (ns : NetStruct) (memsz readsz : Nat) (block : Bytes) (c : ClientBase) :
    Outcome ClientBase Turn :=
  match c.sock.read readsz with
  | (.failure, sock) => .done (.returned false) { c with sock := sock.shutdown }
  | (.wouldBlock, sock) => .done (.returned false) { c with sock := sock }
  | (.data bytes, sock) =>
      match consume ns (ns.size - c.read.field) c.read.field c.read.offset memsz block
          c.decrypt bytes with
      | .error stop => .stopped stop { c with sock := sock }
      | .ok result =>
          .done (if result.complete then .returned true else .again)
            { c with
              sock := sock
              read := { c.read with
                field := result.field
                offset := result.offset
                buf := some result.block }
              decrypt := result.decrypt }

/-- One turn of the outer loop of `resume_read`. -/
def resumeReadTurn (c : ClientBase) : Outcome ClientBase Turn :=
  match c.read.struct with
  | none => .stopped .nullStruct c
  | some ns =>
      match sizeBefore ns c.read.buf c.read.field with
      | .error stop => .stopped stop c
      | .ok (memsz, _) =>
          match planFields ns (c.read.buf.map (Pointer.mk · memsz)) c.read.field c.read.field
              (ns.size - c.read.field) ⟨true, memsz, 0⟩ with
          | .error stop => .stopped stop c
          | .ok none => .done (.returned false) c.shutdown
          | .ok (some plan) =>
              match allocBuf c.read.buf c.read.bufsz plan.allocsz false with
              | .error stop => .stopped stop c
              | .ok block =>
                  let c := { c with
                    read := { c.read with bufsz := block.length, buf := some block } }
                  let readsz := plan.readsz - min plan.readsz c.read.offset
                  if readsz = 0 then
                    .done .again c
                  else if maxObject ≤ readsz then
                    .stopped .badAlloc c
                  else
                    receive ns memsz readsz block c

def resumeRead : Nat → ClientBase → Outcome ClientBase Bool
  | 0, c => .stopped .fuel c
  | fuel + 1, c =>
      match resumeReadTurn c with
      | .stopped stop c => .stopped stop c
      | .done (.returned complete) c => .done complete c
      | .done .again c => resumeRead fuel c

/-- `handle_read`: the buffer of a completed message, if there is one. -/
def handleRead (fuel : Nat) (c : ClientBase) : Outcome ClientBase (Option Bytes) :=
  match resumeRead fuel c with
  | .stopped stop c => .stopped stop c
  | .done false c => .done none c
  | .done true c =>
      .done c.read.buf
        { c with read := { c.read with field := 0, offset := 0, struct := none, buf := none } }

/-! ### Writing -/

def resumeWrite (state : WriteState) (c : ClientBase) : Bool × WriteState × ClientBase :=
  match c.sock.write (state.buf.drop state.bufoffs) with
  | (.failure, sock) | (.brokenPipe, sock) => (false, state, { c with sock := sock.shutdown })
  | (.wouldBlock, sock) => (false, state, { c with sock := sock })
  | (.accepted count, sock) =>
      let state := { state with bufoffs := state.bufoffs + count }
      (state.bufoffs == state.buf.length, state, { c with sock := sock })

/-- Sizing loop of `enqueue_write` over the first `count` fields.  The image
is looked up at the wire position. -/
def sizeMessage (ns : NetStruct) (image : Bytes) : Nat → Except Stop Nat
  | 0 => .ok 0
  | count + 1 => do
      let wiresz ← sizeMessage ns image count
      let result ← calcFieldSz ns count (some ⟨image, wiresz⟩)
      assertD result.known
      return sizeT (wiresz + result.wire)

/-- Where the encrypting loop of `enqueue_write` stands. -/
structure Encoding where
  memPos : Nat
  wirePos : Nat
  buf : Bytes
  encrypt : Context

/-- Encrypting loop of `enqueue_write` over the first `count` fields. -/
def encryptFields (ns : NetStruct) (image : Bytes) (start : Encoding) :
    Nat → Except Stop Encoding
  | 0 => .ok start
  | count + 1 => do
      let at_ ← encryptFields ns image start count
      let result ← calcFieldSz ns count (some ⟨image, at_.memPos⟩)
      assertD result.known
      -- a length that is no `int` is not encrypted, and `encsz` tells
      assertD (result.wire ≤ intMax)
      match load image at_.memPos result.wire with
      | none => throw .load
      | some plain =>
          match store at_.buf at_.wirePos (at_.encrypt.output plain) with
          | none => throw .store
          | some buf =>
              return { memPos := at_.memPos + result.alloc
                       wirePos := at_.wirePos + result.wire
                       buf := buf
                       encrypt := at_.encrypt.feed plain }

/-- The buffering part of `enqueue_write`: the wire buffer, and the cipher
context afterwards. -/
def encodeMessage (ns : NetStruct) (image : Bytes) (encrypt : Context) :
    Except Stop (Bytes × Context) := do
  let wiresz ← sizeMessage ns image ns.size
  let buf ← allocBuf none 0 wiresz true
  let done ← encryptFields ns image ⟨0, 0, buf, encrypt⟩ ns.size
  return (done.buf, done.encrypt)

def enqueueWrite (ns : NetStruct) (image : Bytes) (c : ClientBase) : Outcome ClientBase Unit :=
  match encodeMessage ns image c.encrypt with
  | .error stop => .stopped stop c
  | .ok (wire, encrypt) =>
      let plain := encrypt.fed.drop c.encrypt.fed.length
      let c := { c with
        encrypt := encrypt
        posted := c.posted ++ [Posted.mk ns plain wire] }
      let state : WriteState := ⟨0, wire⟩
      if c.hasPendingWrite then
        .done () { c with writes := c.writes ++ [state] }
      else
        match resumeWrite state c with
        | (true, _, c) => .done () c
        | (false, state, c) => .done () { c with writes := c.writes ++ [state] }

def handleWrite (c : ClientBase) : Bool × ClientBase :=
  match c.writes with
  | [] => (false, c)
  | front :: rest =>
      match resumeWrite front c with
      | (true, _, c) => (true, { c with writes := rest })
      | (false, state, c) => (false, { c with writes := state :: rest })

end ThemeSrv
