import Libgpsfile2.Basic

/-!
# `include/libgpsfile2/provider/provider.hpp`: the interfaces of the providers

A provider is a state `π` and the member functions of one of the abstract classes, as programs
over it. `ProviderRouteWriterBase` has one function for each kind of call; the arguments of a call
are collected in `RouteCall`, so that a sequence of calls is a list. `τ` is `gpsdata::ObjectTime`.
-/

namespace Libgpsfile2

/-- A subclass of `ProviderReaderBase`. -/
structure ProviderReaderBase (π : Type) where
  getData : π → StdString

/-- A subclass of `ProviderWriterBase`, as far as a plain writer uses it. -/
structure ProviderWriterBase (π : Type) where
  setData : StdString → EStateM Exn π Bool

/-- The numeric arguments of `addTrackPointData`. A floating point number is its bit pattern. -/
inductive Number
  | int (n : Int32)
  | longLong (n : Int64)
  | float (bits : UInt32)
  | double (bits : UInt64)
  deriving DecidableEq

/-- A call of a mutator of `ProviderRouteWriterBase`. The last two constructors are the overloads
of `addTrackPointData`. -/
inductive RouteCall (τ : Type)
  | setNumTracks (num : UInt16)
  | setTrackTitle (routeNum : UInt16) (title : StdString)
  | setTrackSummary (routeNum : UInt16) (summary : StdString)
  | setTrackDetails (routeNum : UInt16) (details : StdString)
  | setTrackActivityType (routeNum : UInt16) (type : StdString)
  | setTrackOriginalHash (routeNum : UInt16) (hash : StdString)
  | addTrackPoint (routeNum segmentNum : UInt16) (time : τ)
  | addTrackPointDataString (routeNum segmentNum : UInt16) (time : τ) (type value : StdString)
  | addTrackPointData (routeNum segmentNum : UInt16) (time : τ) (type : StdString) (value : Number)
  deriving DecidableEq

/-- A subclass of `ProviderRouteWriterBase`. -/
structure ProviderRouteWriterBase (π τ : Type) where
  call : RouteCall τ → EStateM Exn π Bool
  finished : EStateM Exn π Unit

end Libgpsfile2
