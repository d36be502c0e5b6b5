import Libgpsfile2.Utils.Iobuf
import Libgpsfile2.Library.Simulation
import Libgpsfile2.Library.Session

/-!
# `src/Datahandler.cpp`: the reader and the writer base class

A handler owns a buffer and drives a plugin, its subclass.

* A reader plugin is any function that, asked for `len` bytes, emits bytes on the stream through
  `put` and `write`, and then says whether this was the last piece or throws (`ReaderPlugin`). The
  stream is a `std::ostream` (libstdc++): `put` calls `sputc`, `write` calls `sputn`, a refused byte
  or an exception of the buffer only sets `badbit`, and nothing is written once it is set.
* A writer plugin is any program over the buffer and a state of its own (`WriterPlugin`).

`Ostream.threw`, `Ostream.paths`, `Reader.reads` and `Writer.writes` are histories: they record
what happened, and nothing in the code depends on them.
-/

namespace Libgpsfile2

/-! ### The output stream -/

/-- How a put operation entered the buffer: by the fast path of `sputc`, by the bulk copy of
`xsputn`, or through `overflow`. -/
inductive Path
  | fast
  | bulk
  | overflow
  deriving DecidableEq

/-- An output operation of a reader plugin. -/
inductive Emit
  | put (c : UInt8)
  | write (s : List UInt8)

/-- The bytes an operation emits. -/
def Emit.bytes : Emit → List UInt8
  | .put c => [c]
  | .write s => s

/-- The path an operation takes in a buffer: it is decided by the room behind `pptr`. -/
def Emit.path (b : Iobuf) : Emit → Path
  | .put _ => if b.outCur < b.outEnd then .fast else .overflow
  | .write s => if (s.length : ℤ) ≤ b.outEnd - b.outCur then .bulk else .overflow

/-- The `std::ostream` of a reader. -/
structure Ostream where
  buf : Iobuf
  bad : Bool
  threw : Bool
  paths : List Path

/-- The call on the buffer behind an operation; false when the stream takes the answer for a
failure. -/
def Emit.run : Emit → IobufM Bool
  | .put c => do return (← Iobuf.sputc c) ≠ eof
  | .write s => do return (← Iobuf.sputn s) = s.length

/-- `ostream::put` and `ostream::write`. -/
def Ostream.emit (e : Emit) : EStateM Exn Ostream Unit := fun o =>
  if o.bad then .ok () o
  else
    match e.run o.buf with
    | .ok done b => .ok () { o with buf := b, bad := !done, paths := o.paths ++ [e.path o.buf] }
    | .error x b =>
        if x.Fatal then .error x { o with buf := b }
        else .ok () { buf := b, bad := true, threw := true, paths := o.paths ++ [e.path o.buf] }

/-- The operations of one call of `read`, in order. -/
def Ostream.emitAll : List Emit → EStateM Exn Ostream Unit
  | [] => return ()
  | e :: es => do
      Ostream.emit e
      Ostream.emitAll es

/-! ### `BaseDatahandlerReaderPlugin` -/

/-- A subclass of `BaseDatahandlerReaderPlugin`: `read` is given the requested length. It emits on
the stream, and then returns whether this was the last piece, or throws. -/
structure ReaderPlugin (σ : Type) where
  read : σ → ℤ → List Emit × Except Exn Bool × σ

/-- A call of `read`: the size asked of `streamRead`, what `in_avail` was then, the length `read`
was given, what it emitted, and what it returned or threw. -/
structure ReadCall where
  size : ℤ
  avail : ℤ
  len : ℤ
  emits : List Emit
  result : Except Exn Bool

/-- A reader handler. -/
structure Reader (σ : Type) where
  out : Ostream
  readFinished : Bool
  plugin : σ
  reads : List ReadCall

namespace Reader

variable {σ : Type}

/-- The constructor, over a new buffer. -/
def new (buf : Iobuf) (plugin : σ) : Reader σ where
  out := { buf := buf, bad := false, threw := false, paths := [] }
  readFinished := false
  plugin := plugin
  reads := []

/-- A program over the stream. -/
def onOut {α : Type} (m : EStateM Exn Ostream α) : EStateM Exn (Reader σ) α :=
  onPart out (fun o r => { r with out := o }) m

/-- A program over the buffer of the stream. -/
def onBuf {α : Type} (m : IobufM α) : EStateM Exn (Reader σ) α :=
  onOut (onPart Ostream.buf (fun b o => { o with buf := b }) m)

/-- The virtual call of `read` from a `streamRead` of `size` bytes. -/
def read (p : ReaderPlugin σ) (size len : ℤ) : EStateM Exn (Reader σ) Bool := do
  let r ← get
  let x := p.read r.plugin len
  let call : ReadCall := ⟨size, r.out.buf.inAvail, len, x.1, x.2.1⟩
  set { r with plugin := x.2.2, reads := r.reads ++ [call] }
  onOut (Ostream.emitAll x.1)
  match x.2.1 with
  | .ok eof => return eof
  | .error e => throw e

/-- The first statement of `streamRead`: the plugin is asked for what is missing. The length
`in_avail () - s` is computed in `std::size_t`. -/
def refill (p : ReaderPlugin σ) (s : UInt64) : EStateM Exn (Reader σ) Unit := do
  let r ← get
  if r.out.buf.inAvail < toStreamsize s ∧ r.readFinished = false then
    let eof ← read p s.toNat ((toSizeT r.out.buf.inAvail - s.toNat) % 2 ^ 64)
    modify fun r => { r with readFinished := eof }

/-- Returns the bytes copied out; their number is the value `streamRead` returns. -/
def streamRead (p : ReaderPlugin σ) (s : UInt64) : EStateM Exn (Reader σ) (List UInt8) := do
  refill p s
  let nRead := min (toSizeT (← get).out.buf.inAvail) s.toNat
  onBuf (Iobuf.sgetn nRead)

end Reader

/-! ### `BaseDatahandlerWriterPlugin` -/

/-- A subclass of `BaseDatahandlerWriterPlugin`: `write` is given the `finished` flag, and works
on the buffer of the stream and a state of its own. -/
structure WriterPlugin (σ : Type) where
  write : Bool → EStateM Exn (Iobuf × σ) Bool

/-- A writer handler. -/
structure Writer (σ : Type) where
  buf : Iobuf
  writeFinished : Bool
  plugin : σ
  writes : List Bool

namespace Writer

variable {σ : Type}

/-- The constructor, over a new buffer. -/
def new (buf : Iobuf) (plugin : σ) : Writer σ where
  buf := buf
  writeFinished := false
  plugin := plugin
  writes := []

/-- A program over the buffer. -/
def onBuf {α : Type} (m : IobufM α) : EStateM Exn (Writer σ) α :=
  onPart buf (fun b w => { w with buf := b }) m

/-- The virtual call of `write`. -/
def write (p : WriterPlugin σ) (finished : Bool) : EStateM Exn (Writer σ) Bool := do
  modify fun w => { w with writes := w.writes ++ [finished] }
  onPart (fun w => (w.buf, w.plugin)) (fun x w => { w with buf := x.1, plugin := x.2 })
    (p.write finished)

/-- The exception of a handler whose `write` returned false. -/
def canNotSetValue : Exn := .runtimeError "Can not set value on object."

def streamWrite (p : WriterPlugin σ) (s : List UInt8) : EStateM Exn (Writer σ) ℤ := do
  if (← get).writeFinished then return 0
  else
    let nPut ← onBuf (Iobuf.sputn s)
    if !(← write p (← get).writeFinished) then throw canNotSetValue
    return nPut

def release (p : WriterPlugin σ) : EStateM Exn (Writer σ) Bool := do
  modify fun w => { w with writeFinished := true }
  if !(← write p (← get).writeFinished) then throw canNotSetValue
  return true

end Writer

end Libgpsfile2
