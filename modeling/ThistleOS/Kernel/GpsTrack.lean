import ThistleOS.CString
import ThistleOS.Component
import ThistleOS.EspErr
import ThistleOS.Kernel.Timestamps
import ThistleOS.Xml

/-!
# The track logger

Positions are recorded into a track, and the track is exported as a GPX document.
-/

open Float.Model (UnpackedFloat)
open ThistleOS.Digits (padded)
open ThistleOS.Timestamps.GpsTrack (unixToIso8601)

namespace ThistleOS.Track

/-! ### Numbers as texts -/

/-- A quotient, where a half goes to the even neighbour. -/
def roundHalfEven (num den : ℕ) : ℕ :=
  let q := num / den
  let r := num % den
  if 2 * r < den ∨ 2 * r = den ∧ q % 2 = 0 then q else q + 1

/-- `n` as a multiple of `10⁻ᵈ` for `d` decimals. -/
def decimal (decimals n : ℕ) : List Char :=
  Nat.toDigits 10 (n / 10 ^ decimals) ++ '.' :: padded decimals (n % 10 ^ decimals)

def signText : UnpackedFloat.Sign → List Char
  | .negative => ['-']
  | .positive => []

/-- `{:.d}` of a floating point number. -/
def fixed (decimals : ℕ) : UnpackedFloat → List Char
  | .notANumber => "NaN".toList
  | .infinity sign => signText sign ++ "inf".toList
  | .zero sign => signText sign ++ decimal decimals 0
  | .finite sign m (.ofNat e) _ => signText sign ++ decimal decimals (m * 10 ^ decimals * 2 ^ e)
  | .finite sign m (.negSucc e) _ =>
    signText sign ++ decimal decimals (roundHalfEven (m * 10 ^ decimals) (2 ^ (e + 1)))

def fixed64 (decimals : ℕ) (x : Float) : List Char := fixed decimals x.toModel.unpack

def fixed32 (decimals : ℕ) (x : Float32) : List Char := fixed decimals x.toModel.unpack

/-! ### Tracks -/

structure HalGpsPosition where
  latitude : Float
  longitude : Float
  altitudeM : Float32
  speedKmh : Float32
  headingDeg : Float32
  satellites : UInt8
  fixValid : Bool
  timestamp : UInt32

structure TrackPoint where
  position : HalGpsPosition
  seq : UInt32
  name : Option String

structure GpsTrack where
  name : String
  points : List TrackPoint
  nextSeq : UInt32

namespace GpsTrack

def new (name : String) : GpsTrack := ⟨name, [], 0⟩

def addPoint (pos : HalGpsPosition) (t : GpsTrack) : GpsTrack :=
  { t with points := t.points ++ [⟨pos, t.nextSeq, none⟩], nextSeq := t.nextSeq + 1 }

def addWaypoint (pos : HalGpsPosition) (name : String) (t : GpsTrack) : GpsTrack :=
  { t with points := t.points ++ [⟨pos, t.nextSeq, some name⟩], nextSeq := t.nextSeq + 1 }

end GpsTrack

def xmlEscapeInto (buf : List Char) (s : String) : List Char :=
  s.toList.foldl (fun buf ch =>
    match ch with
    | '&' => buf ++ "&amp;".toList
    | '<' => buf ++ "&lt;".toList
    | '>' => buf ++ "&gt;".toList
    | '"' => buf ++ "&quot;".toList
    | '\'' => buf ++ "&apos;".toList
    | _ => buf ++ [ch]) buf

/-- The `wpt` element of a point with a name. -/
def pushWpt (xml : List Char) (p : TrackPoint) : List Char :=
  match p.name with
  | some name =>
    let xml := xml ++ ("  <wpt lat=\"".toList ++ fixed64 7 p.position.latitude ++ "\" lon=\"".toList ++
      fixed64 7 p.position.longitude ++ "\">\n".toList)
    let xml := xml ++ ("    <ele>".toList ++ fixed32 1 p.position.altitudeM ++ "</ele>\n".toList)
    let xml := xml ++ "    <time>".toList
    let xml := xml ++ unixToIso8601 p.position.timestamp
    let xml := xml ++ "</time>\n".toList
    let xml := xml ++ "    <name>".toList
    let xml := xmlEscapeInto xml name
    let xml := xml ++ "</name>\n".toList
    xml ++ "  </wpt>\n".toList
  | none => xml

/-- The `trkpt` element of a point. -/
def pushTrkpt (xml : List Char) (p : TrackPoint) : List Char :=
  let xml := xml ++ ("      <trkpt lat=\"".toList ++ fixed64 7 p.position.latitude ++ "\" lon=\"".toList ++
    fixed64 7 p.position.longitude ++ "\">\n".toList)
  let xml := xml ++ ("        <ele>".toList ++ fixed32 1 p.position.altitudeM ++ "</ele>\n".toList)
  let xml := xml ++ "        <time>".toList
  let xml := xml ++ unixToIso8601 p.position.timestamp
  let xml := xml ++ "</time>\n".toList
  let xml := xml ++ ("        <speed>".toList ++ fixed32 2 p.position.speedKmh ++ "</speed>\n".toList)
  let xml := xml ++ ("        <sat>".toList ++ Nat.toDigits 10 p.position.satellites.toNat ++ "</sat>\n".toList)
  xml ++ "      </trkpt>\n".toList

/-- The `time` element of the metadata. -/
def pushTime (xml : List Char) (first : Option TrackPoint) : List Char :=
  match first with
  | some first =>
    let xml := xml ++ "    <time>".toList
    let xml := xml ++ unixToIso8601 first.position.timestamp
    xml ++ "</time>\n".toList
  | none => xml

def GpsTrack.toGpx (t : GpsTrack) : List Char :=
  let xml := "<?xml version=\"1.0\" encoding=\"UTF-8\"?>\n".toList
  let xml := xml ++ "<gpx version=\"1.1\" creator=\"ThistleOS\" ".toList
  let xml := xml ++ "xmlns=\"http://www.topografix.com/GPX/1/1\">\n".toList
  -- the metadata
  let xml := xml ++ "  <metadata>\n".toList
  let xml := xml ++ "    <name>".toList
  let xml := xmlEscapeInto xml t.name
  let xml := xml ++ "</name>\n".toList
  let xml := pushTime xml t.points.head?
  let xml := xml ++ "  </metadata>\n".toList
  -- the waypoints
  let xml := t.points.foldl pushWpt xml
  -- the track
  let xml := xml ++ "  <trk>\n".toList
  let xml := xml ++ "    <name>".toList
  let xml := xmlEscapeInto xml t.name
  let xml := xml ++ "</name>\n".toList
  let xml := xml ++ "    <trkseg>\n".toList
  let xml := t.points.foldl pushTrkpt xml
  let xml := xml ++ "    </trkseg>\n".toList
  let xml := xml ++ "  </trk>\n".toList
  xml ++ "</gpx>\n".toList

/-! ### The exported functions -/

def rsGpsTrackCreate (name : Option CStr) : Option GpsTrack :=
  match name with
  | none => none
  | some name =>
    match name.toStr with
    | none => none
    | some nameStr => some (GpsTrack.new nameStr)

def rsGpsTrackAddPoint (pos : Option HalGpsPosition) (track : GpsTrack) : EspErr × GpsTrack :=
  match pos with
  | none => (espErrInvalidArg, track)
  | some pos => (espOk, track.addPoint pos)

def rsGpsTrackAddWaypoint (pos : Option HalGpsPosition) (name : Option CStr) (track : GpsTrack) :
    EspErr × GpsTrack :=
  match pos, name with
  | some pos, some name =>
    match name.toStr with
    | none => (espErrInvalidArg, track)
    | some nameStr => (espOk, track.addWaypoint pos nameStr)
  | _, _ => (espErrInvalidArg, track)

/-- The length of the text or an error, and what is in the buffer then. The length is an `i32`. -/
def rsGpsTrackToGpx (track : GpsTrack) (buf : List UInt8) : Int32 × List UInt8 :=
  if buf.length = 0 then (espErrInvalidArg, buf)
  else
    let bytes := utf8 (String.ofList track.toGpx)
    if bytes.length > buf.length then (espFail, buf)
    else (Int32.ofNat bytes.length, bytes ++ buf.drop bytes.length)

end ThistleOS.Track
