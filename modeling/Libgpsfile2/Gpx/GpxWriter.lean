import Libgpsfile2.Datahandler
import Libgpsfile2.Provider.Provider

/-!
# `plugins/gpx/gpxwriter.cpp`: the import of GPX files

`GpxWriter` feeds what it is given to a `gpx::Parser`, and at the end passes the parsed document on
to its provider. The parser of gpxlib and `PointDate::parseTime` of gpsdata are parameters,
`ParserClass` and `TimeParser`; a document is what `parseData` and `readExtensions` read of the tree
that the parser built.

`readExtensions` is `noexcept`: an exception inside it ends the process. The route and segment
numbers are `unsigned short`, and so are their counters.
-/

namespace Libgpsfile2

/-! ### Documents -/

/-- A `gpx::Node` below an `extensions` element. -/
inductive Node
  | mk (name value : StdString) (elements : List Node)

def Node.name : Node → StdString
  | .mk name _ _ => name

/-- A `gpx::WPT`: a track point. -/
structure WPT where
  time : StdString
  lat : StdString
  lon : StdString
  ele : StdString
  extensions : List Node

/-- A `gpx::TRKSeg`. -/
structure TRKSeg where
  trkpts : List WPT

/-- A `gpx::TRK`. -/
structure TRK where
  name : StdString
  cmt : StdString
  desc : StdString
  trksegs : List TRKSeg

/-- A `gpx::GPX`: the root of the tree. -/
structure GPX where
  trks : List TRK

/-- The class `gpx::Parser`. `parse` is given a piece of the file and the `final` flag, and says
whether the file is in order so far. -/
structure ParserClass (γ : Type) where
  new : γ
  parse : γ → List UInt8 → Bool → Bool × γ
  root : γ → GPX

/-- `PointDate::parseTime (s, GPX_TIME_FORMATS)`. -/
abbrev TimeParser (τ : Type) := StdString → τ

/-! ### Extensions -/

section Extensions

variable {π τ α : Type} (dp : ProviderRouteWriterBase π τ)

/-- The body of a `noexcept` function: what it throws ends the process. -/
def noexcept {σ : Type} (m : EStateM Exn σ α) : EStateM Exn σ α := fun s =>
  match m s with
  | .ok a s' => .ok a s'
  | .error e s' => if e.Fatal then .error e s' else .error .terminate s'

/-- The length of the name space prefix: it is looked for until one was found. -/
def nsLength (nsLen : UInt16) (name : StdString) : UInt16 :=
  if nsLen = 0 then
    if lit "gpxtpx:" <+: name then 7 else if lit "gpxdata:" <+: name then 8 else nsLen
  else nsLen

/-- The type of the data in an element, by its name without the prefix. -/
def extensionType (name : StdString) : Option StdString :=
  if name = lit "temp" then some (lit "TEMPERATURE")
  else if name = lit "atemp" then some (lit "TEMPERATURE")
  else if name = lit "hr" then some (lit "HEARTRATE")
  else if name = lit "cad" then some (lit "CADANCE")
  else if name = lit "speed" then some (lit "SPEED")
  else if name = lit "SeaLevelPressure" then some (lit "AIR_PRESSURE")
  else none

mutual

/-- The body of the loop of `readExtensions`, for one element. The comparisons of the name throw
when the prefix is longer than the name. -/
def readExtension (route segment : UInt16) (time : τ) (nsLen : UInt16) :
    Node → EStateM Exn π Unit
  | .mk name value elements =>
      if name.length < nsLen.toNat then throw .outOfRange
      else
        match extensionType (name.drop nsLen.toNat) with
        | some type => do
            let _ ← dp.call (.addTrackPointDataString route segment time type value)
        | none =>
            if name.drop nsLen.toNat = lit "TrackPointExtension" then
              noexcept (readElements route segment time nsLen elements)
            else return ()

/-- The loop of `readExtensions`. -/
def readElements (route segment : UInt16) (time : τ) (nsLen : UInt16) :
    List Node → EStateM Exn π Unit
  | [] => return ()
  | node :: nodes => do
      readExtension route segment time (nsLength nsLen node.name) node
      readElements route segment time (nsLength nsLen node.name) nodes

end

def readExtensions (extensions : List Node) (route segment : UInt16) (time : τ) (nsLen : UInt16) :
    EStateM Exn π Unit :=
  noexcept (readElements dp route segment time nsLen extensions)

end Extensions

/-! ### Tracks -/

section Tracks

variable {π τ : Type} (dp : ProviderRouteWriterBase π τ) (parseTime : TimeParser τ)

/-- The body of the innermost loop of `parseData`. -/
def parsePoint (route segmentNr : UInt16) (point : WPT) : EStateM Exn π Unit := do
  let time := parseTime (cStr point.time)
  -- no answer of the provider is looked at, neither here nor below
  let _ ← dp.call (.addTrackPoint route segmentNr time)
  let _ ← dp.call (.addTrackPointDataString route segmentNr time (lit "LAT") point.lat)
  let _ ← dp.call (.addTrackPointDataString route segmentNr time (lit "LON") point.lon)
  let _ ← dp.call (.addTrackPointDataString route segmentNr time (lit "ALT") point.ele)
  readExtensions dp point.extensions route segmentNr time 0

/-- The loop over the points of a segment. -/
def parsePoints (route segmentNr : UInt16) : List WPT → EStateM Exn π Unit
  | [] => return ()
  | point :: points => do
      parsePoint dp parseTime route segmentNr point
      parsePoints route segmentNr points

/-- The loop over the segments of a track. -/
def parseSegments (route : UInt16) : UInt16 → List TRKSeg → EStateM Exn π Unit
  | _, [] => return ()
  | segmentNr, segment :: segments => do
      parsePoints dp parseTime route segmentNr segment.trkpts
      parseSegments route (segmentNr + 1) segments

/-- The loop over the tracks. -/
def parseTracks : UInt16 → List TRK → EStateM Exn π Unit
  | _, [] => return ()
  | route, track :: tracks => do
      let _ ← dp.call (.setTrackTitle route (cStr track.name))
      let _ ← dp.call (.setTrackSummary route (cStr track.cmt))
      let _ ← dp.call (.setTrackDetails route (cStr track.desc))
      parseSegments dp parseTime route 0 track.trksegs
      parseTracks (route + 1) tracks

def parseData (root : GPX) : EStateM Exn π Bool := do
  if root.trks.length < 1 then return false
  else
    let _ ← dp.call (.setNumTracks (UInt16.ofNat root.trks.length))
    parseTracks dp parseTime 0 root.trks
    return true

end Tracks

/-! ### The writer -/

/-- A `GpxWriter`. `parser` is `nullptr` at the end. `feeds` is the history of the calls of
`parse`. -/
structure GpxWriter (γ π : Type) where
  parser : Option γ
  dp : π
  feeds : List (List UInt8 × Bool)

namespace GpxWriter

variable {γ π τ : Type} (P : ParserClass γ) (dp : ProviderRouteWriterBase π τ)
  (parseTime : TimeParser τ)

/-- The constructor. -/
def new (provider : π) : GpxWriter γ π := ⟨some P.new, provider, []⟩

/-- `this->_parser->parse (b, l, is_final)`. -/
def parse (bytes : List UInt8) (isFinal : Bool) : EStateM Exn (GpxWriter γ π) Bool := fun x =>
  match x.parser with
  | none => .error .nullPointer x
  | some g =>
      .ok (P.parse g bytes isFinal).1
        { x with
          parser := some (P.parse g bytes isFinal).2
          feeds := x.feeds ++ [(bytes, isFinal)] }

/-- `this->parseData (this->_parser->root ())`. -/
def parseRoot : EStateM Exn (GpxWriter γ π) Bool := do
  match (← get).parser with
  | none => throw .nullPointer
  | some g =>
      onPart GpxWriter.dp (fun d x => { x with dp := d }) (parseData dp parseTime (P.root g))

/-- The last statement of `write`: the end of the import. -/
def complete (isFinal res : Bool) : EStateM Exn (GpxWriter γ π) Bool := do
  if isFinal && res then
    let res ← parseRoot P dp parseTime
    -- the import ends here, also when `parseData` has returned false
    modify fun x => { x with parser := none }
    onPart GpxWriter.dp (fun d x => { x with dp := d }) dp.finished
    return res
  else return res

def write (isFinal : Bool) : EStateM Exn (Iobuf × GpxWriter γ π) Bool := do
  let buf := (← get).1
  let l := buf.inAvail
  let bytes ← onFst (Iobuf.memcpyFrom buf.getBuffer l)
  let res ← onSnd (parse P bytes isFinal)
  onFst (Iobuf.consumeGet l)
  onSnd (complete P dp parseTime isFinal res)

/-- The class `GpxWriter`. -/
def plugin : WriterPlugin (GpxWriter γ π) where
  write := write P dp parseTime

end GpxWriter

/-! ### What a provider was asked -/

/-- A call that was made of a provider: the state it found, and what it returned or threw. -/
structure Made (π τ : Type) where
  call : RouteCall τ
  state : π
  result : Except Exn Bool

/-- A provider that keeps a history of the calls of its mutators. -/
def traced {π τ : Type} (dp : ProviderRouteWriterBase π τ) :
    ProviderRouteWriterBase (π × List (Made π τ)) τ where
  call c := fun x => match dp.call c x.1 with
    | .ok b p => .ok b (p, x.2 ++ [⟨c, x.1, .ok b⟩])
    | .error e p => .error e (p, x.2 ++ [⟨c, x.1, .error e⟩])
  finished := onFst dp.finished

/-- A call of a provider: of a mutator, or of `finished`. -/
inductive ProviderCall (τ : Type)
  | mutator (c : RouteCall τ)
  | finished
  deriving DecidableEq

/-- A call that is noted, whatever comes of it. -/
def noted {π τ α : Type} (c : ProviderCall τ) (m : EStateM Exn π α) :
    EStateM Exn (π × List (ProviderCall τ)) α := fun x =>
  match m x.1 with
  | .ok a p => .ok a (p, x.2 ++ [c])
  | .error e p => .error e (p, x.2 ++ [c])

/-- A provider that notes all calls that are made of it, in their order. -/
def logged {π τ : Type} (dp : ProviderRouteWriterBase π τ) :
    ProviderRouteWriterBase (π × List (ProviderCall τ)) τ where
  call c := noted (.mutator c) (dp.call c)
  finished := noted .finished dp.finished

end Libgpsfile2
