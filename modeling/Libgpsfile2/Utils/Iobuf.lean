import Libgpsfile2.Basic
import Libgpsfile2.Library.Slice

/-!
# `src/utils/Iobuf.cpp`: the stream buffer

`Iobuf` is the state of a `basic_iobuf<char>`: the six pointers of `std::basic_streambuf`, the
base counter, the one block of memory they point into, and the answers of the coming calls of
`realloc`. An address is an integer, and the contents of fresh memory are arbitrary.

* the memory accesses `load`, `store`, `memcpyFrom`, `memcpyTo`, `memmove` end with
  `Exn.outOfBounds` when they leave the block;
* `overflow`, `xsputn`, `xsgetn`, `underflow`, `pbackfail`, `sync`, `showmanyc`, `getNumPut`,
  `getNumGet`, `consumeAllGet`, `consumeGet`, `str` are the members of `basic_iobuf`;
* `sputc`, `sputn`, `sgetc`, `sbumpc`, `sgetn`, `sungetc`, `sputbackc`, `pubsync`, `inAvail` are
  the members of `std::basic_streambuf` (libstdc++) that call them. `sputc` stores at `pptr` and
  advances only `pptr` when there is room, and calls `overflow` otherwise.
-/

namespace Libgpsfile2

/-- `BUFFER_STEP_SIZE`, for a `char_type` of one byte. -/
def bufferStepSize : ℤ := 1024 * 1024

/-- The behaviour of `realloc` from now on: the address each coming call returns (`none` is
`NULL`), and how many of the calls made so far returned `NULL`. -/
structure Allocator where
  answers : ℕ → Option ℤ
  refusals : ℕ

/-- The allocator after its next call. -/
def Allocator.next (a : Allocator) : Allocator where
  answers k := a.answers (k + 1)
  refusals := if a.answers 0 = none then a.refusals + 1 else a.refusals

/-- A `basic_iobuf<char>`. `block` and `size` are the live allocation, `mem` the memory. -/
structure Iobuf where
  mem : ℤ → UInt8
  block : ℤ
  size : ℤ
  alloc : Allocator
  inBeg : ℤ
  inCur : ℤ
  inEnd : ℤ
  outBeg : ℤ
  outCur : ℤ
  outEnd : ℤ
  baseNumBuffer : ℤ

/-- Programs over an `Iobuf`. -/
abbrev IobufM := EStateM Exn Iobuf

namespace Iobuf

/-- The constructor: `malloc` returned `p`, and `mem` is what the memory happens to hold. -/
def new (mem : ℤ → UInt8) (p : ℤ) (alloc : Allocator) : Iobuf where
  mem := mem
  block := p
  size := bufferStepSize
  alloc := alloc
  inBeg := p
  inCur := p
  inEnd := p
  outBeg := p
  outCur := p
  outEnd := p + bufferStepSize
  baseNumBuffer := 0

/-! ### Memory -/

/-- The `n` bytes at `p` lie inside the block. -/
def inBlock (b : Iobuf) (p n : ℤ) : Bool :=
  b.block ≤ p ∧ 0 ≤ n ∧ p + n ≤ b.block + b.size

/-- Ends the program when the `n` bytes at `p` are not all inside the block. -/
def access (p n : ℤ) : IobufM Unit := fun b =>
  if b.inBlock p n then .ok () b else .error .outOfBounds b

/-- `*p` read. -/
def load (p : ℤ) : IobufM UInt8 := do
  access p 1
  return (← get).mem p

/-- `*p = c`. -/
def store (p : ℤ) (c : UInt8) : IobufM Unit := do
  access p 1
  modify fun b => { b with mem := Function.update b.mem p c }

/-- `memcpy` out of the block: the `n` bytes at `p`. -/
def memcpyFrom (p n : ℤ) : IobufM (List UInt8) := do
  access p n
  return slice (← get).mem p (p + n)

/-- `memcpy` of the bytes `s` into the block at `p`. -/
def memcpyTo (p : ℤ) (s : List UInt8) : IobufM Unit := do
  access p s.length
  modify fun b => { b with mem := blit b.mem p s }

/-- `memmove (dst, src, n)` inside the block. -/
def memmove (dst src n : ℤ) : IobufM Unit := do
  access dst n
  access src n
  modify fun b => { b with mem := move b.mem dst src n }

/-- `realloc (p, n)`: on success the block is `n` bytes at the returned address and holds what
the old block held, up to the smaller of the two sizes. -/
def realloc (p n : ℤ) : IobufM (Option ℤ) := do
  let b ← get
  match b.alloc.answers 0 with
  | some q =>
      set { b with
        mem := move b.mem q p (min b.size n)
        block := q
        size := n
        alloc := b.alloc.next }
      return some q
  | none =>
      set { b with alloc := b.alloc.next }
      return none

/-! ### `basic_iobuf` -/

/-- `*_M_out_cur = c; _M_out_cur++; _M_in_end = _M_out_cur`, the common tail of `overflow`. -/
def overflowStore (c : ℤ) : IobufM ℤ := do
  store (← get).outCur (intToChar c)
  modify fun b => { b with outCur := b.outCur + 1 }
  modify fun b => { b with inEnd := b.outCur }
  return toIntType (intToChar c)

def overflow (c : ℤ) : IobufM ℤ := do
  let b ← get
  if b.inBeg < b.inCur then
    -- move the pending bytes back to the beginning of the buffer
    memmove b.inBeg b.inCur (b.outCur - b.inCur)
    modify fun b => { b with baseNumBuffer := b.baseNumBuffer + (b.inCur - b.inBeg) }
    modify fun b => { b with outCur := b.outCur - (b.inCur - b.inBeg) }
    modify fun b => { b with inCur := b.inBeg }
    modify fun b => { b with inEnd := b.outCur }
    overflowStore c
  else
    -- nothing was consumed: increase the buffer
    match ← realloc b.outBeg (b.outEnd - b.outBeg + 1024) with
    | some p =>
        modify fun b => { b with inBeg := p }
        modify fun b => { b with outEnd := b.inBeg + (b.outEnd - b.outBeg) + 1024 }
        modify fun b => { b with inCur := b.inBeg + (b.inCur - b.outBeg) }
        modify fun b => { b with outCur := b.inBeg + (b.outCur - b.outBeg) }
        modify fun b => { b with outBeg := b.inBeg }
        modify fun b => { b with inEnd := b.outCur }
        overflowStore c
    | none =>
        modify fun b => { b with inBeg := b.outBeg }
        return eof

/-- The loop of `xsputn`: bytes go through `overflow` while the rest does not fit. Returns the
rest. A negative room would read past the end of the caller's bytes. -/
def xsputnLoop : List UInt8 → IobufM (List UInt8)
  | [] => do
      let b ← get
      if b.outEnd - b.outCur < 0 then throw .outOfBounds
      return []
  | c :: s => do
      let b ← get
      if b.outEnd - b.outCur < (c :: s).length then
        -- a `char` is compared with the `int` that came back
        let r ← overflow (charToInt c)
        if charToInt c ≠ r then throw (.runtimeError "Overflow returned the wrong character")
        xsputnLoop s
      else return c :: s

def xsputn (s : List UInt8) : IobufM ℤ := do
  let rest ← xsputnLoop s
  memcpyTo (← get).outCur rest
  modify fun b => { b with outCur := b.outCur + rest.length }
  modify fun b => { b with inEnd := b.inEnd + rest.length }
  return s.length

/-- Returns the bytes copied out; their number is the value `xsgetn` returns. -/
def xsgetn (n : ℤ) : IobufM (List UInt8) := do
  let b ← get
  let ret := min n (b.inEnd - b.inCur)
  let s ← memcpyFrom b.inCur ret
  modify fun b => { b with inCur := b.inCur + ret }
  return s

def underflow : IobufM ℤ := do
  modify fun b => { b with inEnd := b.outCur }
  let b ← get
  if b.inCur = b.inEnd then return eof
  else return toIntType (← load b.inCur)

def pbackfail (c : ℤ) : IobufM ℤ := do
  let b ← get
  if b.inBeg < b.inCur then
    modify fun b => { b with inCur := b.inCur - 1 }
    store (← get).inCur (intToChar c)
    return toIntType (intToChar c)
  else return eof

def sync : IobufM ℤ := do
  modify fun b => { b with inEnd := b.outCur }
  return 0

def showmanyc (b : Iobuf) : ℤ := b.outCur - b.inCur

def getNumPut (b : Iobuf) : ℤ := b.baseNumBuffer + (b.outCur - b.outBeg)

def getNumGet (b : Iobuf) : ℤ := b.baseNumBuffer + (b.inCur - b.inBeg)

/-- `getBuffer` is the pointer `_M_in_cur` itself. -/
def getBuffer (b : Iobuf) : ℤ := b.inCur

def consumeAllGet : IobufM Unit :=
  modify fun b => { b with inCur := b.inEnd }

def consumeGet (n : ℤ) : IobufM Unit :=
  modify fun b => { b with inCur := b.inCur + n }

/-- The getter `str`: the bytes from `pbase` to `pptr`. -/
def str : IobufM (List UInt8) := do
  let b ← get
  memcpyFrom b.outBeg (b.outCur - b.outBeg)

/-- The loop of the setter `str`. The `len` bytes at `ptr` are left to be put, of the bytes that
stand at `ptr`; `len` is a `size_t`. -/
def setStrLoop : List UInt8 → ℤ → IobufM Unit
  | [], len => if 0 < len then throw .outOfBounds else return ()
  | c :: s, len => do
      if 0 < len then
        if (c :: s).length < len then throw .outOfBounds
        let n ← xsputn ((c :: s).take len.toNat)
        let len := (len - n) % 2 ^ 64
        if 0 < len then
          let r ← overflow (charToInt c)
          if intToChar r ≠ c then throw (.runtimeError "Can not allocate new memory for buffer")
          setStrLoop s (len - 1)
        else return ()
      else return ()

/-- The setter `str`. -/
def setStr (s : List UInt8) : IobufM Unit := setStrLoop s s.length

/-! ### `std::basic_streambuf` -/

def sputc (c : UInt8) : IobufM ℤ := do
  let b ← get
  if b.outCur < b.outEnd then
    store b.outCur c
    modify fun b => { b with outCur := b.outCur + 1 }
    return toIntType c
  else overflow (toIntType c)

def sputn (s : List UInt8) : IobufM ℤ := xsputn s

def sgetc : IobufM ℤ := do
  let b ← get
  if b.inCur < b.inEnd then return toIntType (← load b.inCur)
  else underflow

def uflow : IobufM ℤ := do
  if (← underflow) = eof then return eof
  else
    let c ← load (← get).inCur
    modify fun b => { b with inCur := b.inCur + 1 }
    return toIntType c

def sbumpc : IobufM ℤ := do
  let b ← get
  if b.inCur < b.inEnd then
    let c ← load b.inCur
    modify fun b => { b with inCur := b.inCur + 1 }
    return toIntType c
  else uflow

def sgetn (n : ℤ) : IobufM (List UInt8) := xsgetn n

def sungetc : IobufM ℤ := do
  let b ← get
  if b.inBeg < b.inCur then
    modify fun b => { b with inCur := b.inCur - 1 }
    return toIntType (← load (← get).inCur)
  else pbackfail eof

def sputbackc (c : UInt8) : IobufM ℤ := do
  let b ← get
  if b.inBeg < b.inCur then
    -- the base class does not write a byte that is there already
    if c = (← load (b.inCur - 1)) then
      modify fun b => { b with inCur := b.inCur - 1 }
      return toIntType (← load (← get).inCur)
    else pbackfail (toIntType c)
  else pbackfail (toIntType c)

def pubsync : IobufM ℤ := sync

def inAvail (b : Iobuf) : ℤ :=
  if b.inEnd - b.inCur ≠ 0 then b.inEnd - b.inCur else b.showmanyc

end Iobuf

end Libgpsfile2
