import ThistleOS.Kernel.GpsTrack
import ThistleOS.Xml.Elements

/-!
# What a GPX document says

A reader of the documents that the track logger exports, and what it reads from them.
-/

open Float.Model (UnpackedFloat)
open ThistleOS.Digits (padded)
open ThistleOS.Timestamps.GpsTrack (unixToIso8601)
open ThistleOS.Xml

namespace ThistleOS.Track

/-! ### Documents -/

/-- A point of a route with its name, as texts. -/
structure Wpt where
  lat : List Char
  lon : List Char
  ele : List Char
  time : List Char
  name : List Char
  deriving DecidableEq

/-- A point of the track, as texts. -/
structure Trkpt where
  lat : List Char
  lon : List Char
  ele : List Char
  time : List Char
  speed : List Char
  sat : List Char
  deriving DecidableEq

structure Gpx where
  name : List Char
  time : Option (List Char)
  waypoints : List Wpt
  trackName : List Char
  points : List Trkpt
  deriving DecidableEq

/-! ### The reader -/

def readWpt : TagReader Wpt := do
  let attrs ← opening "wpt".toList ["lat".toList, "lon".toList]
  let ele ← leaf "ele".toList
  let time ← leaf "time".toList
  let name ← leaf "name".toList
  closingBlank "wpt".toList
  return ⟨attrs.getD 0 [], attrs.getD 1 [], ele, time, name⟩

def readTrkpt : TagReader Trkpt := do
  let attrs ← opening "trkpt".toList ["lat".toList, "lon".toList]
  let ele ← leaf "ele".toList
  let time ← leaf "time".toList
  let speed ← leaf "speed".toList
  let sat ← leaf "sat".toList
  closingBlank "trkpt".toList
  return ⟨attrs.getD 0 [], attrs.getD 1 [], ele, time, speed, sat⟩

def declared : TagReader Unit := do
  let e ← nextEvent
  if e.tag = .decl "xml version=\"1.0\" encoding=\"UTF-8\"?".toList then return () else failure

def readEvents : TagReader Gpx := do
  declared
  let _ ← opening "gpx".toList ["version".toList, "creator".toList, "xmlns".toList]
  let _ ← opening "metadata".toList []
  let name ← leaf "name".toList
  let time ← (some <$> leaf "time".toList) <|> pure none
  closingBlank "metadata".toList
  let waypoints ← all readWpt
  let _ ← opening "trk".toList []
  let trackName ← leaf "name".toList
  let _ ← opening "trkseg".toList []
  let points ← all readTrkpt
  closingBlank "trkseg".toList
  closingBlank "trk".toList
  closingBlank "gpx".toList
  return ⟨name, time, waypoints, trackName, points⟩

def readGpx (text : List Char) : Option Gpx := do
  let doc ← read text
  let (gpx, events) ← readEvents doc.events
  if events = [] ∧ doc.text.all Char.isWhitespace then return gpx else failure

/-! ### What is exported -/

def Wpt.events (w : Wpt) : List Xml.Event :=
  openEvent 2 "wpt".toList [("lat".toList, w.lat), ("lon".toList, w.lon)] ::
    (leafEvents 4 "ele".toList w.ele ++ leafEvents 4 "time".toList w.time ++ leafEvents 4 "name".toList w.name ++
      [closeEvent 2 "wpt".toList])

def Trkpt.events (p : Trkpt) : List Xml.Event :=
  openEvent 6 "trkpt".toList [("lat".toList, p.lat), ("lon".toList, p.lon)] ::
    (leafEvents 8 "ele".toList p.ele ++ leafEvents 8 "time".toList p.time ++ leafEvents 8 "speed".toList p.speed ++
      leafEvents 8 "sat".toList p.sat ++ [closeEvent 6 "trkpt".toList])

def declaration : Xml.Event := ⟨[], .decl "xml version=\"1.0\" encoding=\"UTF-8\"?".toList⟩

def gpxAttrs : List (List Char × List Char) :=
  [("version".toList, "1.1".toList), ("creator".toList, "ThistleOS".toList),
    ("xmlns".toList, "http://www.topografix.com/GPX/1/1".toList)]

def timeEvents (time : Option (List Char)) : List Xml.Event := time.toList.flatMap (leafEvents 4 "time".toList)

def Gpx.document (g : Gpx) : Document where
  events :=
    declaration :: openEvent 0 "gpx".toList gpxAttrs :: openEvent 2 "metadata".toList [] ::
      (leafEvents 4 "name".toList g.name ++ (timeEvents g.time ++ closeEvent 2 "metadata".toList ::
        (g.waypoints.flatMap Wpt.events ++ openEvent 2 "trk".toList [] ::
          (leafEvents 4 "name".toList g.trackName ++ openEvent 4 "trkseg".toList [] ::
            (g.points.flatMap Trkpt.events ++
              [closeEvent 4 "trkseg".toList, closeEvent 2 "trk".toList, closeEvent 0 "gpx".toList])))))
  text := ['\n']

def TrackPoint.wpt? (p : TrackPoint) : Option Wpt :=
  p.name.map fun name => ⟨fixed64 7 p.position.latitude, fixed64 7 p.position.longitude,
    fixed32 1 p.position.altitudeM, unixToIso8601 p.position.timestamp, name.toList⟩

def TrackPoint.trkpt (p : TrackPoint) : Trkpt :=
  ⟨fixed64 7 p.position.latitude, fixed64 7 p.position.longitude, fixed32 1 p.position.altitudeM,
    unixToIso8601 p.position.timestamp, fixed32 2 p.position.speedKmh,
    Nat.toDigits 10 p.position.satellites.toNat⟩

/-- What a document says about a track. -/
def GpsTrack.gpx (t : GpsTrack) : Gpx where
  name := t.name.toList
  time := t.points.head?.map fun first => unixToIso8601 first.position.timestamp
  waypoints := t.points.filterMap TrackPoint.wpt?
  trackName := t.name.toList
  points := t.points.map TrackPoint.trkpt

/-! ### The text of the export -/

lemma xmlEscapeInto_eq (buf : List Char) (s : String) : xmlEscapeInto buf s = buf ++ escape s.toList := by
  rw [xmlEscapeInto]
  induction s.toList generalizing buf with
  | nil => simp [escape]
  | cons c cs ih =>
    have hcons : buf ++ escape (c :: cs) = buf ++ escapeChar c ++ escape cs := (List.append_assoc _ _ _).symm
    rw [List.foldl_cons, ih, hcons]
    congr 1
    split
    · rfl
    · rfl
    · rfl
    · rfl
    · rfl
    · rename_i h1 h2 h3 h4 h5
      rw [escapeChar, if_neg h1, if_neg h2, if_neg h3, if_neg h4, if_neg h5]

lemma foldl_push {α : Type} {f : List Char → α → List Char} {g : α → List Char} (h : ∀ xml x, f xml x = xml ++ g x)
    (l : List α) (xml : List Char) : l.foldl f xml = xml ++ l.flatMap g := by
  induction l generalizing xml with
  | nil => simp
  | cons x l ih => rw [List.foldl_cons, ih, h, List.flatMap_cons, List.append_assoc]

/-- A text without the five characters. -/
def IsPlain (s : List Char) : Prop := ∀ c ∈ s, c ∉ "&<>\"'".toList

lemma isPlain_append {s s' : List Char} (h : IsPlain s) (h' : IsPlain s') : IsPlain (s ++ s') := fun c hc =>
  (List.mem_append.mp hc).elim (h c) (h' c)

lemma isPlain_cons {c : Char} {s : List Char} (hc : c ∉ "&<>\"'".toList) (h : IsPlain s) : IsPlain (c :: s) :=
  isPlain_append (s := [c]) (fun _ hc' => List.mem_singleton.mp hc' ▸ hc) h

lemma isPlain_toDigits (n : ℕ) : IsPlain (Nat.toDigits 10 n) := fun c hc hmem => by
  have hdigit : c.isDigit = true := Nat.isDigit_of_mem_toDigits (by decide) (by decide) hc
  have hlist : c = '&' ∨ c = '<' ∨ c = '>' ∨ c = '"' ∨ c = '\'' := by simpa using hmem
  rcases hlist with rfl | rfl | rfl | rfl | rfl <;> cases hdigit

lemma isPlain_padded (width n : ℕ) : IsPlain (padded width n) := by
  refine isPlain_append (fun c hc => ?_) (isPlain_toDigits n)
  rw [List.eq_of_mem_replicate hc]
  decide

lemma isPlain_decimal (decimals n : ℕ) : IsPlain (decimal decimals n) :=
  isPlain_append (isPlain_toDigits _) (isPlain_cons (by decide) (isPlain_padded _ _))

lemma isPlain_signText (sign : UnpackedFloat.Sign) : IsPlain (signText sign) := by
  cases sign
  · exact isPlain_cons (by decide) (by simp [IsPlain])
  · simp [signText, IsPlain]

lemma isPlain_fixed (decimals : ℕ) (x : UnpackedFloat) : IsPlain (fixed decimals x) := by
  unfold fixed
  split
  · simp [IsPlain]
  · exact isPlain_append (isPlain_signText _) (by simp [IsPlain])
  · exact isPlain_append (isPlain_signText _) (isPlain_decimal _ _)
  · exact isPlain_append (isPlain_signText _) (isPlain_decimal _ _)
  · exact isPlain_append (isPlain_signText _) (isPlain_decimal _ _)

lemma escape_fixed64 (decimals : ℕ) (x : Float) : escape (fixed64 decimals x) = fixed64 decimals x :=
  escape_plain (isPlain_fixed decimals _)

lemma escape_fixed32 (decimals : ℕ) (x : Float32) : escape (fixed32 decimals x) = fixed32 decimals x :=
  escape_plain (isPlain_fixed decimals _)

lemma isPlain_mark {c : Char} {width n : ℕ} {s : List Char} (hc : c ∉ "&<>\"'".toList) (h : IsPlain s) :
    IsPlain (padded width n ++ c :: s) :=
  isPlain_append (isPlain_padded width n) (isPlain_cons hc h)

lemma escape_time (ts : UInt32) : escape (unixToIso8601 ts) = unixToIso8601 ts := by
  rw [Timestamps.gpsTrack_text]
  refine escape_plain (isPlain_mark (by decide) ?_)
  refine isPlain_mark (by decide) (isPlain_mark (by decide) ?_)
  exact isPlain_mark (by decide) (isPlain_mark (by decide) (isPlain_mark (by decide) (by simp [IsPlain])))

lemma escape_toDigits (n : ℕ) : escape (Nat.toDigits 10 n) = Nat.toDigits 10 n := escape_plain (isPlain_toDigits n)

/-! The lines of the export end with the line break that is in front of the tags of a document. -/

def openLine (indent : ℕ) (name : List Char) (attrs : List (List Char × List Char)) : List Char :=
  List.replicate indent ' ' ++ '<' :: (name ++ (['"'].intercalate (attrPieces attrs) ++ ['>', '\n']))

def closeLine (indent : ℕ) (name : List Char) : List Char :=
  List.replicate indent ' ' ++ '<' :: '/' :: (name ++ ['>', '\n'])

def leafStart (indent : ℕ) (name : List Char) : List Char := List.replicate indent ' ' ++ '<' :: (name ++ ['>'])

def leafEnd (name : List Char) : List Char := '<' :: '/' :: (name ++ ['>', '\n'])

def leafLine (indent : ℕ) (name s : List Char) : List Char := leafStart indent name ++ (s ++ leafEnd name)

lemma newline_openLine (indent : ℕ) (name : List Char) (attrs : List (List Char × List Char)) (rest : List Char) :
    '\n' :: (openLine indent name attrs ++ rest) = text [openEvent indent name attrs] ++ '\n' :: rest := by
  simp [openLine, openEvent, text, Xml.Event.piece, Tag.inside, escape_indent]

lemma newline_closeLine (indent : ℕ) (name rest : List Char) :
    '\n' :: (closeLine indent name ++ rest) = text [closeEvent indent name] ++ '\n' :: rest := by
  simp [closeLine, closeEvent, text, Xml.Event.piece, Tag.inside, escape_indent]

lemma newline_leafLine (indent : ℕ) (name s rest : List Char) :
    '\n' :: (leafLine indent name (escape s) ++ rest) = text (leafEvents indent name s) ++ '\n' :: rest := by
  simp [leafLine, leafStart, leafEnd, leafEvents, text, Xml.Event.piece, Tag.inside, attrPieces, escape_indent]

lemma newline_flatMap {α : Type} {f g : α → List Char} (h : ∀ x rest, '\n' :: (f x ++ rest) = g x ++ '\n' :: rest)
    (l : List α) (rest : List Char) : '\n' :: (l.flatMap f ++ rest) = l.flatMap g ++ '\n' :: rest := by
  induction l with
  | nil => rfl
  | cons x l ih => rw [List.flatMap_cons, List.flatMap_cons, List.append_assoc, List.append_assoc, ← ih, h]

/-- The lines of a waypoint. -/
def wptText (w : Wpt) : List Char :=
  openLine 2 "wpt".toList [("lat".toList, w.lat), ("lon".toList, w.lon)] ++
    (leafLine 4 "ele".toList (escape w.ele) ++ (leafLine 4 "time".toList (escape w.time) ++
    (leafLine 4 "name".toList (escape w.name) ++ closeLine 2 "wpt".toList)))

/-- The lines of a point of the track. -/
def trkptText (p : Trkpt) : List Char :=
  openLine 6 "trkpt".toList [("lat".toList, p.lat), ("lon".toList, p.lon)] ++
    (leafLine 8 "ele".toList (escape p.ele) ++ (leafLine 8 "time".toList (escape p.time) ++
    (leafLine 8 "speed".toList (escape p.speed) ++ (leafLine 8 "sat".toList (escape p.sat) ++
    closeLine 6 "trkpt".toList))))

lemma newline_wptText (w : Wpt) (rest : List Char) :
    '\n' :: (wptText w ++ rest) = text w.events ++ '\n' :: rest := by
  rw [wptText, Wpt.events, text_cons, text_append, text_append, text_append]
  simp only [List.append_assoc, newline_openLine, newline_leafLine, newline_closeLine]

lemma newline_trkptText (p : Trkpt) (rest : List Char) :
    '\n' :: (trkptText p ++ rest) = text p.events ++ '\n' :: rest := by
  rw [trkptText, Trkpt.events, text_cons, text_append, text_append, text_append, text_append]
  simp only [List.append_assoc, newline_openLine, newline_leafLine, newline_closeLine]

/-! The texts that the export pushes make up lines. -/

lemma wptLine_eq (lat lon : Float) :
    "  <wpt lat=\"".toList ++ fixed64 7 lat ++ "\" lon=\"".toList ++ fixed64 7 lon ++ "\">\n".toList =
      openLine 2 "wpt".toList [("lat".toList, fixed64 7 lat), ("lon".toList, fixed64 7 lon)] := by
  simp [openLine, attrPieces, escape_fixed64, List.intercalate_cons_cons, List.replicate_succ]

lemma trkptLine_eq (lat lon : Float) :
    "      <trkpt lat=\"".toList ++ fixed64 7 lat ++ "\" lon=\"".toList ++ fixed64 7 lon ++ "\">\n".toList =
      openLine 6 "trkpt".toList [("lat".toList, fixed64 7 lat), ("lon".toList, fixed64 7 lon)] := by
  simp [openLine, attrPieces, escape_fixed64, List.intercalate_cons_cons, List.replicate_succ]

lemma pushWpt_eq (xml : List Char) (p : TrackPoint) : pushWpt xml p = xml ++ p.wpt?.toList.flatMap wptText := by
  rw [pushWpt, TrackPoint.wpt?]
  cases p.name with
  | none => exact (List.append_nil xml).symm
  | some name =>
    rw [Option.map_some, Option.toList_some, List.flatMap_singleton, wptText]
    dsimp only
    rw [wptLine_eq, xmlEscapeInto_eq, escape_fixed32, escape_time]
    simp only [leafLine, List.append_assoc]
    rfl

lemma pushTrkpt_eq (xml : List Char) (p : TrackPoint) : pushTrkpt xml p = xml ++ trkptText p.trkpt := by
  rw [pushTrkpt, trkptText, TrackPoint.trkpt]
  dsimp only
  rw [trkptLine_eq, escape_fixed32, escape_fixed32, escape_time, escape_toDigits]
  simp only [leafLine, List.append_assoc]
  rfl

/-- The line of the time. -/
def timeText (time : Option (List Char)) : List Char :=
  time.toList.flatMap fun time => leafLine 4 "time".toList (escape time)

lemma newline_timeText (time : Option (List Char)) (rest : List Char) :
    '\n' :: (timeText time ++ rest) = text (timeEvents time) ++ '\n' :: rest := by
  rw [timeText, timeEvents, text_flatMap]
  exact newline_flatMap (fun time rest => newline_leafLine 4 "time".toList time rest) _ rest

lemma pushTime_eq (xml : List Char) (first : Option TrackPoint) : pushTime xml first =
    xml ++ timeText (first.map fun first => unixToIso8601 first.position.timestamp) := by
  unfold pushTime
  rw [timeText]
  cases first with
  | none => exact (List.append_nil xml).symm
  | some first =>
    rw [Option.map_some, Option.toList_some, List.flatMap_singleton, escape_time]
    simp only [leafLine, List.append_assoc]
    rfl

lemma head_eq (rest : List Char) :
    "<?xml version=\"1.0\" encoding=\"UTF-8\"?>\n".toList ++ ("<gpx version=\"1.1\" creator=\"ThistleOS\" ".toList ++
      ("xmlns=\"http://www.topografix.com/GPX/1/1\">\n".toList ++ rest)) =
    text [declaration] ++ '\n' :: (openLine 0 "gpx".toList gpxAttrs ++ rest) := by
  have hdecl : "<?xml version=\"1.0\" encoding=\"UTF-8\"?>\n".toList = text [declaration] ++ ['\n'] := by decide
  have hgpx : "<gpx version=\"1.1\" creator=\"ThistleOS\" ".toList ++
      "xmlns=\"http://www.topografix.com/GPX/1/1\">\n".toList = openLine 0 "gpx".toList gpxAttrs := by decide
  rw [hdecl, ← hgpx]
  simp only [List.append_assoc, List.singleton_append]

/-- The export is a document. -/
lemma toGpx_eq (t : GpsTrack) : t.toGpx = write t.gpx.document := by
  have hwpts : (t.points.flatMap fun p => p.wpt?.toList.flatMap wptText) = t.gpx.waypoints.flatMap wptText := by
    rw [GpsTrack.gpx, List.filterMap_eq_flatMap_toList, List.flatMap_assoc]
  have hpoints : (t.points.flatMap fun p => trkptText p.trkpt) = t.gpx.points.flatMap trkptText := by
    rw [GpsTrack.gpx, List.flatMap_map]
  have hlines : t.toGpx = text [declaration] ++ '\n' :: (openLine 0 "gpx".toList gpxAttrs ++
      (openLine 2 "metadata".toList [] ++ (leafLine 4 "name".toList (escape t.gpx.name) ++
      (timeText t.gpx.time ++ (closeLine 2 "metadata".toList ++ (t.gpx.waypoints.flatMap wptText ++
      (openLine 2 "trk".toList [] ++ (leafLine 4 "name".toList (escape t.gpx.trackName) ++
      (openLine 4 "trkseg".toList [] ++ (t.gpx.points.flatMap trkptText ++
      (closeLine 4 "trkseg".toList ++ (closeLine 2 "trk".toList ++ (closeLine 0 "gpx".toList ++ []))))))))))))) := by
    rw [GpsTrack.toGpx]
    rw [foldl_push pushTrkpt_eq, foldl_push pushWpt_eq, pushTime_eq, xmlEscapeInto_eq, xmlEscapeInto_eq, hwpts, hpoints]
    simp only [leafLine, List.append_assoc, List.append_nil, head_eq]
    rfl
  rw [hlines]
  simp only [newline_openLine, newline_leafLine, newline_timeText, newline_closeLine, newline_flatMap newline_wptText,
    newline_flatMap newline_trkptText, ← text_flatMap]
  rw [write]
  change _ = text t.gpx.document.events ++ ['\n']
  simp only [text, Gpx.document, List.flatMap_cons, List.flatMap_append, List.flatMap_nil, List.append_assoc,
    List.append_nil]

/-! ### What is read from the export -/

lemma plain_latLon {name : List Char} (h : IsName name) (indent : ℕ) (lat lon : List Char) :
    (openEvent indent name [("lat".toList, lat), ("lon".toList, lon)]).tag.Plain := by
  refine ⟨h, fun attr hattr => ?_⟩
  rcases List.mem_cons.mp hattr with rfl | hattr
  · exact (by decide : IsName "lat".toList)
  · rw [List.mem_singleton.mp hattr]
    exact (by decide : IsName "lon".toList)

lemma plainTags_wpt (w : Wpt) : PlainTags w.events := by
  refine plainTags_cons (plain_latLon (by decide) 2 w.lat w.lon) (plainTags_append ?_ ?_)
  · exact plainTags_append (plainTags_leaf (by decide) (plainTags_leafEvents (by decide) _ _))
      (plainTags_leafEvents (by decide) _ _)
  · exact plainTags_cons (by decide : IsName "wpt".toList) (fun _ he => nomatch he)

lemma plainTags_trkpt (p : Trkpt) : PlainTags p.events := by
  refine plainTags_cons (plain_latLon (by decide) 6 p.lat p.lon) (plainTags_append ?_ ?_)
  · exact plainTags_append (plainTags_append (plainTags_leaf (by decide) (plainTags_leafEvents (by decide) _ _))
      (plainTags_leafEvents (by decide) _ _)) (plainTags_leafEvents (by decide) _ _)
  · exact plainTags_cons (by decide : IsName "trkpt".toList) (fun _ he => nomatch he)

lemma plainTags_document (g : Gpx) : PlainTags g.document.events := by
  have hopen : ∀ indent {name}, IsName name → (openEvent indent name []).tag.Plain := fun _ _ h => ⟨h, by simp⟩
  have hgpx : (openEvent 0 "gpx".toList gpxAttrs).tag.Plain := ⟨by decide, by decide⟩
  refine plainTags_cons ⟨by decide, by decide⟩ (plainTags_cons hgpx (plainTags_cons (hopen 2 (by decide)) ?_))
  refine plainTags_leaf (by decide) (plainTags_append ?_ (plainTags_cons (by decide : IsName "metadata".toList) ?_))
  · exact plainTags_flatMap (plainTags_leafEvents (by decide) 4) _
  refine plainTags_append (plainTags_flatMap plainTags_wpt _) (plainTags_cons (hopen 2 (by decide)) ?_)
  refine plainTags_leaf (by decide) (plainTags_cons (hopen 4 (by decide)) ?_)
  refine plainTags_append (plainTags_flatMap plainTags_trkpt _) ?_
  exact plainTags_cons (by decide : IsName "trkseg".toList) (plainTags_cons (by decide : IsName "trk".toList)
    (plainTags_cons (by decide : IsName "gpx".toList) (fun _ he => nomatch he)))

lemma readWpt_events (w : Wpt) (rest : List Xml.Event) : readWpt (w.events ++ rest) = some (w, rest) := by
  have hopening : ∀ events, opening "wpt".toList ["lat".toList, "lon".toList]
      (openEvent 2 "wpt".toList [("lat".toList, w.lat), ("lon".toList, w.lon)] :: events) =
        some ([w.lat, w.lon], events) :=
    opening_openEvent "wpt".toList [("lat".toList, w.lat), ("lon".toList, w.lon)] 2
  rw [Wpt.events]
  simp only [List.cons_append, List.append_assoc, List.nil_append]
  rw [readWpt, run_bind (hopening _), run_bind (leaf_leafEvents "ele".toList w.ele 4 _),
    run_bind (leaf_leafEvents "time".toList w.time 4 _), run_bind (leaf_leafEvents "name".toList w.name 4 _),
    run_bind (closingBlank_closeEvent "wpt".toList 2 rest)]
  rfl

lemma readTrkpt_events (p : Trkpt) (rest : List Xml.Event) : readTrkpt (p.events ++ rest) = some (p, rest) := by
  have hopening : ∀ events, opening "trkpt".toList ["lat".toList, "lon".toList]
      (openEvent 6 "trkpt".toList [("lat".toList, p.lat), ("lon".toList, p.lon)] :: events) =
        some ([p.lat, p.lon], events) :=
    opening_openEvent "trkpt".toList [("lat".toList, p.lat), ("lon".toList, p.lon)] 6
  rw [Trkpt.events]
  simp only [List.cons_append, List.append_assoc, List.nil_append]
  rw [readTrkpt, run_bind (hopening _), run_bind (leaf_leafEvents "ele".toList p.ele 8 _),
    run_bind (leaf_leafEvents "time".toList p.time 8 _), run_bind (leaf_leafEvents "speed".toList p.speed 8 _),
    run_bind (leaf_leafEvents "sat".toList p.sat 8 _), run_bind (closingBlank_closeEvent "trkpt".toList 6 rest)]
  rfl

lemma readWpts (ws : List Wpt) (attrs : List (List Char × List Char)) (rest : List Xml.Event) :
    all readWpt (ws.flatMap Wpt.events ++ openEvent 2 "trk".toList attrs :: rest) =
      some (ws, openEvent 2 "trk".toList attrs :: rest) :=
  many_flatMap readWpt_events (bind_none (opening_other (by decide) _ attrs 2 rest) _) ws
    (length_le_flatMap (fun w => by simp [Wpt.events]) ws _)

lemma readTrkpts (ps : List Trkpt) (rest : List Xml.Event) :
    all readTrkpt (ps.flatMap Trkpt.events ++ closeEvent 4 "trkseg".toList :: rest) =
      some (ps, closeEvent 4 "trkseg".toList :: rest) :=
  many_flatMap readTrkpt_events (bind_none (opening_closeEvent _ _ 4 _ rest) _) ps
    (length_le_flatMap (fun p => by simp [Trkpt.events]) ps _)

lemma readTime (time : Option (List Char)) (indent : ℕ) (name : List Char) (rest : List Xml.Event) :
    ((some <$> leaf "time".toList) <|> pure none : TagReader (Option (List Char)))
      (timeEvents time ++ closeEvent indent name :: rest) = some (time, closeEvent indent name :: rest) := by
  cases time with
  | none => rfl
  | some time =>
    have hleaf := leaf_leafEvents "time".toList time 4 (closeEvent indent name :: rest)
    have hevents : timeEvents (some time) = leafEvents 4 "time".toList time := List.append_nil _
    rw [hevents]
    exact orElse_some (run_bind hleaf (pure ∘ some)) _

lemma readEvents_document (g : Gpx) : readEvents g.document.events = some (g, []) := by
  have hgpx : ∀ events, opening "gpx".toList ["version".toList, "creator".toList, "xmlns".toList]
      (openEvent 0 "gpx".toList gpxAttrs :: events) = some (gpxAttrs.map Prod.snd, events) :=
    opening_openEvent "gpx".toList gpxAttrs 0
  have hopening : ∀ name indent events, opening name [] (openEvent indent name [] :: events) = some ([], events) :=
    fun name indent => opening_openEvent name [] indent
  rw [readEvents, Gpx.document]
  dsimp only
  rw [run_bind (x := ()) rfl, run_bind (hgpx _), run_bind (hopening "metadata".toList 2 _),
    run_bind (leaf_leafEvents "name".toList g.name 4 _), run_bind (readTime g.time 2 _ _),
    run_bind (closingBlank_closeEvent "metadata".toList 2 _), run_bind (readWpts g.waypoints [] _),
    run_bind (hopening "trk".toList 2 _), run_bind (leaf_leafEvents "name".toList g.trackName 4 _),
    run_bind (hopening "trkseg".toList 4 _), run_bind (readTrkpts g.points _),
    run_bind (closingBlank_closeEvent "trkseg".toList 4 _), run_bind (closingBlank_closeEvent "trk".toList 2 _),
    run_bind (closingBlank_closeEvent "gpx".toList 0 _)]
  rfl

lemma readGpx_toGpx (t : GpsTrack) : readGpx t.toGpx = some t.gpx := by
  rw [toGpx_eq, readGpx, read_write (plainTags_document t.gpx)]
  change ((readEvents t.gpx.document.events).bind _) = _
  rw [readEvents_document]
  rfl

/-! ### Runs -/

inductive Op
  | addPoint (pos : Option HalGpsPosition)
  | addWaypoint (pos : Option HalGpsPosition) (name : Option CStr)

def component : Component Op (fun _ => EspErr) GpsTrack where
  step
    | .addPoint pos => rsGpsTrackAddPoint pos
    | .addWaypoint pos name => rsGpsTrackAddWaypoint pos name

/-- The position that a call records, and its name. -/
def recorded : Op → Option (HalGpsPosition × Option String)
  | .addPoint pos => pos.map fun pos => (pos, none)
  | .addWaypoint pos name => do
    let pos ← pos
    let name ← name
    let nameStr ← name.toStr
    return (pos, some nameStr)

/-- What a document says about the positions that have been recorded. -/
def gpxOf (name : String) (fixes : List (HalGpsPosition × Option String)) : Gpx :=
  (GpsTrack.mk name (fixes.map fun fix => ⟨fix.1, 0, fix.2⟩) 0).gpx

lemma gpx_eq (t : GpsTrack) : t.gpx = gpxOf t.name (t.points.map fun p => (p.position, p.name)) := by
  rw [gpxOf, GpsTrack.gpx, GpsTrack.gpx]
  simp only [List.map_map, List.head?_map, Option.map_map, List.filterMap_map]
  rfl

lemma run_recorded (t : GpsTrack) (ops : List Op) : (component.run t ops).name = t.name ∧
    (component.run t ops).points.map (fun p => (p.position, p.name)) =
      t.points.map (fun p => (p.position, p.name)) ++ ops.filterMap recorded := by
  induction ops generalizing t with
  | nil => simp
  | cons o ops ih =>
    have hstep : (component.next o t).name = t.name ∧
        (component.next o t).points.map (fun p => (p.position, p.name)) =
          t.points.map (fun p => (p.position, p.name)) ++ (recorded o).toList := by
      cases o with
      | addPoint pos =>
        cases pos with
        | none => exact ⟨rfl, (List.append_nil _).symm⟩
        | some pos => exact ⟨rfl, List.map_append⟩
      | addWaypoint pos name =>
        cases pos with
        | none => exact ⟨rfl, (List.append_nil _).symm⟩
        | some pos =>
          cases name with
          | none => exact ⟨rfl, (List.append_nil _).symm⟩
          | some name =>
            change (rsGpsTrackAddWaypoint (some pos) (some name) t).2.name = t.name ∧
              (rsGpsTrackAddWaypoint (some pos) (some name) t).2.points.map _ =
                _ ++ (name.toStr.bind fun nameStr => some (pos, some nameStr)).toList
            rw [rsGpsTrackAddWaypoint]
            cases name.toStr with
            | none => exact ⟨rfl, (List.append_nil _).symm⟩
            | some nameStr => exact ⟨rfl, List.map_append⟩
    rw [Component.run_cons, (ih _).1, (ih _).2, hstep.1, hstep.2, List.append_assoc]
    cases hrecorded : recorded o with
    | none => rw [List.filterMap_cons_none hrecorded, Option.toList_none, List.nil_append]; exact ⟨rfl, rfl⟩
    | some fix => rw [List.filterMap_cons_some hrecorded]; exact ⟨rfl, rfl⟩

end ThistleOS.Track
