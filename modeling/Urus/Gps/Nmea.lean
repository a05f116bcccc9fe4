/-
This file models how `AP_GPS_NMEA` takes a stream of bytes apart into sentences and terms, and what
a sentence writes to the state of the GPS.

The fraction of the minutes of an angle is computed in floating point and is a parameter. Speed and
course are written in hundredths, before they are scaled. The times at which sentences came, and the
result of `_decode` that is made from them, are left out. A `char` is unsigned.
-/

import Urus.Lib.Framing
import Urus.Gps.NmeaDecimal

namespace Urus.Gps.Nmea

open NmeaDecimal

/-! ### Data -/

/-- `_sentence_types`. -/
inductive SentenceType
  | other
  | rmc
  | gga
  | vtg
  deriving DecidableEq

/-- The value of a sentence type. -/
def SentenceType.value : SentenceType → ℕ
  | .other => 0
  | .rmc => 32
  | .gga => 64
  | .vtg => 96

/-- The results of terms, which are kept until the checksum comes: `_new_time` and so on. -/
structure New where
  time : ℤ
  date : ℤ
  latitude : ℤ
  longitude : ℤ
  altitude : ℤ
  speed : ℤ
  course : ℤ
  hdop : ℤ
  satelliteCount : ℤ
  qualityIndicator : ℤ
  deriving DecidableEq

/-- What has been read of a sentence. -/
structure Reading where
  sentenceType : SentenceType
  gpsDataGood : Bool
  new : New
  deriving DecidableEq

/-- The variables of `AP_GPS_NMEA`. -/
structure Decoder where
  parity : UInt8
  isChecksumTerm : Bool
  term : List UInt8
  termNumber : UInt8
  termOffset : ℕ
  reading : Reading
  deriving DecidableEq

/-- `sizeof(_term)`. -/
def termSize : ℕ := 15

/-- `GPS_Status`. -/
inductive Status
  | noFix
  | gpsOkFix3D
  | gpsOkFix3DDgps
  | gpsOkFix3DRtkFloat
  | gpsOkFix3DRtkFixed
  deriving DecidableEq

/-- What a sentence writes to the state of the GPS. -/
inductive Write
  | lat (value : ℤ)
  | lng (value : ℤ)
  | alt (value : ℤ)
  | numSats (value : ℤ)
  | hdop (value : ℤ)
  | status (value : Status)
  | groundSpeed (value : ℤ)
  | groundCourse (value : ℤ)
  | gpsTime (date time : ℤ)
  deriving DecidableEq

/-- The part of `GPS_State` that a fix is made of. -/
structure GpsState where
  lat : ℤ
  lng : ℤ
  alt : ℤ
  numSats : ℤ
  hdop : ℤ
  status : Status
  deriving DecidableEq

/-- A value is written to the state. -/
def GpsState.write (state : GpsState) : Write → GpsState
  | .lat value => { state with lat := value }
  | .lng value => { state with lng := value }
  | .alt value => { state with alt := value }
  | .numSats value => { state with numSats := value }
  | .hdop value => { state with hdop := value }
  | .status value => { state with status := value }
  | .groundSpeed _ => state
  | .groundCourse _ => state
  | .gpsTime _ _ => state

/-! ### Terms -/

/-- The text of a term, up to the first zero. -/
def cString (term : List UInt8) : List UInt8 := term.takeWhile (· ≠ 0)

/-- A text as characters. -/
def chars (text : List UInt8) : List Char := text.map fun byte => Char.ofNat byte.toNat

/-- Characters as bytes. -/
def bytes (text : String) : List UInt8 := text.toList.map Char.toUInt8

/-- `_from_hex`. -/
def fromHex (a : UInt8) : ℤ :=
  if a ≥ 'A'.toUInt8 ∧ a ≤ 'F'.toUInt8 then (a.toNat : ℤ) - 'A'.toNat + 10
  else if a ≥ 'a'.toUInt8 ∧ a ≤ 'f'.toUInt8 then (a.toNat : ℤ) - 'a'.toNat + 10
  else (a.toNat : ℤ) - '0'.toNat

/-- The checksum that two characters stand for, as `uint8_t`. -/
def checksum (high low : UInt8) : ℤ := (16 * fromHex high + fromHex low) % 2 ^ 8

/-- `atol`. -/
def atol (text : List UInt8) : ℤ := (strtol (chars text)).1

/-- A byte that is a digit. -/
def isDigitByte (byte : UInt8) : Bool := '0'.toUInt8 ≤ byte && byte ≤ '9'.toUInt8

/-- The number that digits stand for, as `uint8_t`. -/
def digitsUInt8 (digits : List UInt8) : ℕ :=
  digits.foldl (fun value digit => (value * 10 + (digit.toNat - '0'.toNat)) % 2 ^ 8) 0

/-- `_parse_degrees`, with the conversion to `int32_t` behind it. -/
def parseDegrees (fraction : List UInt8 → ℤ) (text : List UInt8) : ℤ :=
  let digits := text.takeWhile isDigitByte
  let deg := digitsUInt8 (digits.take (digits.length - 2))
  let min := digitsUInt8 (digits.drop (digits.length - 2))
  let fracMin :=
    match text.dropWhile isDigitByte with
    | [] => 0
    | point :: rest => if point = '.'.toUInt8 then fraction (rest.takeWhile isDigitByte) else 0
  toInt32 (deg * 10000000 + min * 10000000 / 60 + fracMin)

/-- The cases of the switch in `_term_complete`. -/
inductive Label
  | validityRmc
  | fixData
  | validityVtg
  | satelliteCount
  | hdop
  | time
  | date
  | latitude
  | northSouth
  | longitude
  | eastWest
  | altitude
  | speed
  | course
  deriving DecidableEq

/-- The case for a sentence type and a term number, which come as their sum. -/
def label : ℕ → Option Label
  -- from `_GPS_SENTENCE_RMC`, which is 32
  | 33 => some .time
  | 34 => some .validityRmc
  | 35 => some .latitude
  | 36 => some .northSouth
  | 37 => some .longitude
  | 38 => some .eastWest
  | 39 => some .speed
  | 40 => some .course
  | 41 => some .date
  -- from `_GPS_SENTENCE_GGA`, which is 64
  | 65 => some .time
  | 66 => some .latitude
  | 67 => some .northSouth
  | 68 => some .longitude
  | 69 => some .eastWest
  | 70 => some .fixData
  | 71 => some .satelliteCount
  | 72 => some .hdop
  | 73 => some .altitude
  -- from `_GPS_SENTENCE_VTG`, which is 96
  | 97 => some .course
  | 101 => some .speed
  | 105 => some .validityVtg
  | _ => none

/-- The first term: it says what the sentence is. -/
def Reading.firstTerm (reading : Reading) (term : List UInt8) : Reading :=
  if term.getD 0 0 < 'A'.toUInt8 ∨ term.getD 0 0 > 'Z'.toUInt8 ∨ term.getD 1 0 < 'A'.toUInt8 ∨
      term.getD 1 0 > 'Z'.toUInt8 then
    { reading with sentenceType := .other }
  else if cString (term.drop 2) = bytes "RMC" then { reading with sentenceType := .rmc }
  else if cString (term.drop 2) = bytes "GGA" then { reading with sentenceType := .gga }
  else if cString (term.drop 2) = bytes "VTG" then
    { reading with sentenceType := .vtg, gpsDataGood := true }
  else { reading with sentenceType := .other }

variable (fraction : List UInt8 → ℤ)

/-- A case of the switch, for a text that is not empty. -/
def Reading.read (reading : Reading) (text : List UInt8) : Label → Reading
  | .validityRmc => { reading with gpsDataGood := text.headD 0 = 'A'.toUInt8 }
  | .fixData =>
    { reading with
      gpsDataGood := text.headD 0 > '0'.toUInt8
      new.qualityIndicator := ((text.headD 0).toNat - '0'.toNat : ℤ) % 2 ^ 8 }
  | .validityVtg => { reading with gpsDataGood := text.headD 0 ≠ 'N'.toUInt8 }
  | .satelliteCount => { reading with new.satelliteCount := atol text % 2 ^ 8 }
  | .hdop => { reading with new.hdop := parseDecimal100 (chars text) % 2 ^ 16 }
  | .time => { reading with new.time := parseDecimal100 (chars text) }
  | .date => { reading with new.date := toInt32 (atol text) }
  | .latitude => { reading with new.latitude := parseDegrees fraction text }
  | .northSouth =>
    if text.headD 0 = 'S'.toUInt8 then
      { reading with new.latitude := toInt32 (-reading.new.latitude) }
    else reading
  | .longitude => { reading with new.longitude := parseDegrees fraction text }
  | .eastWest =>
    if text.headD 0 = 'W'.toUInt8 then
      { reading with new.longitude := toInt32 (-reading.new.longitude) }
    else reading
  | .altitude => { reading with new.altitude := parseDecimal100 (chars text) }
  | .speed => { reading with new.speed := (toInt32 (parseDecimal100 (chars text) * 514)).tdiv 1000 }
  | .course => { reading with new.course := parseDecimal100 (chars text) }

/-- `_term_complete` for a term that is not the checksum. -/
def Reading.completeTerm (reading : Reading) (termNumber : UInt8) (term : List UInt8) : Reading :=
  if termNumber = 0 then reading.firstTerm term
  else if reading.sentenceType ≠ .other ∧ cString term ≠ [] then
    match label (reading.sentenceType.value + termNumber.toNat) with
    | some label => reading.read fraction (cString term) label
    | none => reading
  else reading

/-! ### Sentences -/

/-- The status that a quality indicator stands for. -/
def statusOf (qualityIndicator : ℤ) : Status :=
  if qualityIndicator = 0 then .noFix
  else if qualityIndicator = 1 then .gpsOkFix3D
  else if qualityIndicator = 2 then .gpsOkFix3DDgps
  else if qualityIndicator = 3 then .gpsOkFix3D
  else if qualityIndicator = 4 then .gpsOkFix3DRtkFixed
  else if qualityIndicator = 5 then .gpsOkFix3DRtkFloat
  else if qualityIndicator = 6 then .noFix
  else .gpsOkFix3D

/-- What a sentence with the right checksum writes. -/
def Reading.writes (reading : Reading) : List Write :=
  if reading.gpsDataGood then
    match reading.sentenceType with
    | .rmc =>
      [.lat reading.new.latitude, .lng reading.new.longitude, .groundSpeed reading.new.speed,
        .groundCourse reading.new.course, .gpsTime reading.new.date (reading.new.time * 10)]
    | .gga =>
      [.alt reading.new.altitude, .lat reading.new.latitude, .lng reading.new.longitude,
        .numSats reading.new.satelliteCount, .hdop reading.new.hdop,
        .status (statusOf reading.new.qualityIndicator)]
    | .vtg => [.groundSpeed reading.new.speed, .groundCourse reading.new.course]
    | .other => []
  else
    match reading.sentenceType with
    | .rmc => [.status .noFix]
    | .gga => [.status .noFix]
    | .vtg => []
    | .other => []

/-- `_term_complete`. -/
def Decoder.termComplete (decoder : Decoder) : Decoder × List Write :=
  if decoder.isChecksumTerm then
    (decoder,
      if checksum (decoder.term.getD 0 0) (decoder.term.getD 1 0) = decoder.parity.toNat then
        decoder.reading.writes
      else [])
  else
    ({ decoder with
      reading := decoder.reading.completeTerm fraction decoder.termNumber decoder.term }, [])

/-- A byte that ends a term. -/
def Ends (c : UInt8) : Prop :=
  c = ','.toUInt8 ∨ c = '\r'.toUInt8 ∨ c = '\n'.toUInt8 ∨ c = '*'.toUInt8

instance (c : UInt8) : Decidable (Ends c) := inferInstanceAs (Decidable (_ ∨ _ ∨ _ ∨ _))

/-- The end of a term. -/
def Decoder.endTerm (decoder : Decoder) (c : UInt8) : Decoder × List Write :=
  let parity := if c = ','.toUInt8 then decoder.parity ^^^ c else decoder.parity
  let completed :=
    if decoder.termOffset < termSize then
      Decoder.termComplete fraction
        { decoder with parity := parity, term := decoder.term.set decoder.termOffset 0 }
    else ({ decoder with parity := parity }, [])
  ({ completed.1 with
    termNumber := completed.1.termNumber + 1
    termOffset := 0
    isChecksumTerm := c = '*'.toUInt8 }, completed.2)

/-- The beginning of a sentence. -/
def Decoder.begin (decoder : Decoder) : Decoder :=
  { decoder with
    termNumber := 0
    termOffset := 0
    parity := 0
    isChecksumTerm := false
    reading := { decoder.reading with sentenceType := .other, gpsDataGood := false } }

/-- An ordinary character. -/
def Decoder.hold (decoder : Decoder) (c : UInt8) : Decoder :=
  let parity := if decoder.isChecksumTerm then decoder.parity else decoder.parity ^^^ c
  if decoder.termOffset < termSize - 1 then
    { decoder with
      term := decoder.term.set decoder.termOffset c
      termOffset := decoder.termOffset + 1
      parity := parity }
  else { decoder with parity := parity }

/-- `_decode`, and what is written to the state. -/
def decode (decoder : Decoder) (c : UInt8) : Decoder × List Write :=
  if Ends c then decoder.endTerm fraction c
  else if c = '$'.toUInt8 then (decoder.begin, [])
  else (decoder.hold c, [])

/-- The decoder behind its constructor. -/
def start : Decoder where
  parity := 0
  isChecksumTerm := false
  term := List.replicate termSize 0
  termNumber := 0
  termOffset := 0
  reading := ⟨.other, false, ⟨0, 0, 0, 0, 0, 0, 0, 0, 0, 0⟩⟩

end Urus.Gps.Nmea
