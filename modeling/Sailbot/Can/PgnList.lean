import Mathlib.Data.Rat.Defs
import Mathlib.Algebra.Order.Field.Rat
import Mathlib.Data.List.Nodup

/-!
# The table of PGNs

`can/canboat-pgn.h`: for every PGN its size in bytes and the list of its fields,
each with a width in bits, a resolution and a sign. A positive resolution is the
unit of a number; the negative ones are codes for other kinds of fields. The
double constants of the source are taken as the exact rationals they are written
as.

A field list ends at the first entry without a name; here it is a list. Units,
lookup texts and the columns that no function of the node reads are left out.
-/

namespace Sailbot.Can

structure Field where
  name       : String
  size       : Nat
  resolution : ℚ
  hasSign    : Bool

structure Pgn where
  description : String
  pgn         : Nat
  size        : Nat
  fieldList   : List Field

def bytes (n : Nat) : Nat := n * 8

-- ---------------------------------------------------------------------------
-- Resolutions
-- ---------------------------------------------------------------------------

def resLatLong : ℚ := 1 / 10 ^ 7
def resLatLong64 : ℚ := 1 / 10 ^ 16
def resRadians : ℚ := 1 / 10 ^ 4
def resHiresRotation : ℚ := 1 / 10 ^ 3 / 32 * (1 / 1000)
def resAscii : ℚ := -1
def resLatitude : ℚ := -2
def resLongitude : ℚ := -3
def resDate : ℚ := -4
def resTime : ℚ := -5
def resTemperature : ℚ := -6
def resInteger : ℚ := -8
def resLookup : ℚ := -9
def resBinary : ℚ := -10
def resPressure : ℚ := -14
def resPressureHires : ℚ := -21

-- ---------------------------------------------------------------------------
-- The table
-- ---------------------------------------------------------------------------

def pgnList : List Pgn := [
  ⟨"System Time", 126992, 8, [
    ⟨"SID", bytes 1, 1, false⟩,
    ⟨"Source", 4, resLookup, false⟩,
    ⟨"Reserved", 4, resBinary, false⟩,
    ⟨"Date", bytes 2, resDate, false⟩,
    ⟨"Time", bytes 4, resTime, false⟩]⟩,
  ⟨"Configuration Information", 126998, 0x2a, [
    ⟨"Station ID", bytes 2, 1, false⟩,
    ⟨"Station Name", bytes 2, 1, false⟩,
    ⟨"A", bytes 2, 1, false⟩,
    ⟨"Manufacturer", bytes 36, resAscii, false⟩,
    ⟨"Installation Description #1", bytes 2, 1, false⟩,
    ⟨"Installation Description #2", bytes 2, 1, false⟩]⟩,
  ⟨"Vessel Heading", 127250, 8, [
    ⟨"SID", bytes 1, 1, false⟩,
    ⟨"Heading", bytes 2, resRadians, false⟩,
    ⟨"Deviation", bytes 2, resRadians, true⟩,
    ⟨"Variation", bytes 2, resRadians, true⟩,
    ⟨"Reference", 2, resLookup, false⟩]⟩,
  ⟨"Rate of Turn", 127251, 5, [
    ⟨"SID", bytes 1, 1, false⟩,
    ⟨"Rate", bytes 4, resHiresRotation, true⟩]⟩,
  ⟨"Analog Read", 0xFF01, 1, [
    ⟨"Val", bytes 1, 4, false⟩,
    ⟨"Current", bytes 1, 1, false⟩]⟩,
  ⟨"PWM Write", 0xFF02, 3, [
    ⟨"Winch", bytes 1, 1, false⟩,
    ⟨"Rudder", bytes 1, 1, false⟩,
    ⟨"Ballast", bytes 1, 1, false⟩]⟩,
  ⟨"Debug SCAMP1", 0xFF03, 8, [
    ⟨"D1", bytes 4, 1, false⟩,
    ⟨"D2", bytes 4, 1, false⟩]⟩,
  ⟨"Debug SCAMP2", 0xFF04, 8, [
    ⟨"D1", bytes 4, 1, false⟩,
    ⟨"D2", bytes 4, 1, false⟩]⟩,
  ⟨"Ballast State", 0xFF05, 4, [
    ⟨"Heel", bytes 2, resRadians, true⟩,
    ⟨"Ballast Arm", bytes 2, resRadians, true⟩]⟩,
  ⟨"Sailbot State", 0xFF10, 8, [
    ⟨"Wing State", bytes 1, 1, false⟩,
    ⟨"Ballast", bytes 1, 1, false⟩,
    ⟨"Winch", bytes 1, 1, false⟩,
    ⟨"Rudder", bytes 1, 1, false⟩,
    ⟨"Tacker", bytes 1, 1, false⟩]⟩,
  ⟨"Connection Status", 0xFF11, 8, [
    ⟨"Wing Connection", bytes 1, 1, false⟩,
    ⟨"Radio Connection", bytes 1, 1, false⟩,
    ⟨"WiFi Connection", bytes 1, 1, false⟩,
    ⟨"Jetson Connection", bytes 1, 1, false⟩,
    ⟨"UI Connection", bytes 1, 1, false⟩]⟩,
  ⟨"Battery Voltage", 0xFF20, 4, [
    ⟨"Voltage", bytes 1, 1/10, false⟩]⟩,
  ⟨"Attitude", 127257, 7, [
    ⟨"SID", bytes 1, 1, false⟩,
    ⟨"Yaw", bytes 2, resRadians, true⟩,
    ⟨"Pitch", bytes 2, resRadians, true⟩,
    ⟨"Roll", bytes 2, resRadians, true⟩]⟩,
  ⟨"Magnetic Variation", 127258, 6, [
    ⟨"SID", bytes 1, 1, false⟩,
    ⟨"Source", 4, resLookup, false⟩,
    ⟨"Reserved", 4, resBinary, false⟩,
    ⟨"Age of service", bytes 2, resDate, false⟩,
    ⟨"Variation", bytes 2, resRadians, true⟩]⟩,
  ⟨"Position, Rapid Update", 129025, 8, [
    ⟨"Latitude", bytes 4, resLatitude, true⟩,
    ⟨"Longitude", bytes 4, resLongitude, true⟩]⟩,
  ⟨"COG & SOG, Rapid Update", 129026, 8, [
    ⟨"SID", bytes 1, 1, false⟩,
    ⟨"COG Reference", 2, resLookup, false⟩,
    ⟨"Reserved", 6, resBinary, false⟩,
    ⟨"COG", bytes 2, resRadians, false⟩,
    ⟨"SOG", bytes 2, 1/100, false⟩,
    ⟨"Reserved", bytes 2, resBinary, false⟩]⟩,
  ⟨"Time & Date", 129033, 8, [
    ⟨"Date", bytes 2, resDate, false⟩,
    ⟨"Time", bytes 4, resTime, false⟩,
    ⟨"Local Offset", bytes 2, resInteger, true⟩]⟩,
  ⟨"Datum", 129044, 24, [
    ⟨"Local Datum", bytes 4, resAscii, false⟩,
    ⟨"Delta Latitude", bytes 4, resLatitude, true⟩,
    ⟨"Delta Longitude", bytes 4, resLongitude, true⟩,
    ⟨"Delta Altitude", bytes 4, 1/1000000, true⟩,
    ⟨"Reference Datum", bytes 4, resAscii, false⟩]⟩,
  ⟨"GNSS Control Status", 129538, 0, [
    ⟨"SV Elevation Mask", bytes 2, 1, false⟩,
    ⟨"PDOP Mask", bytes 2, 1/100, false⟩,
    ⟨"PDOP Switch", bytes 2, 1/100, false⟩,
    ⟨"SNR Mask", bytes 2, 1/100, false⟩,
    ⟨"GNSS Mode (desired)", 3, resLookup, false⟩,
    ⟨"DGNSS Mode (desired)", 3, resLookup, false⟩,
    ⟨"Position/Velocity Filter", 2, 1, false⟩,
    ⟨"Max Correction Age", bytes 2, 1, false⟩,
    ⟨"Antenna Altitude for 2D Mode", bytes 2, 1/100, false⟩,
    ⟨"Use Antenna Altitude for 2D Mode", 2, resLookup, false⟩]⟩,
  ⟨"GNSS DOPs", 129539, 8, [
    ⟨"SID", bytes 1, 1, false⟩,
    ⟨"Desired Mode", 3, resLookup, false⟩,
    ⟨"Actual Mode", 3, resLookup, false⟩,
    ⟨"Reserved", 2, resBinary, false⟩,
    ⟨"HDOP", bytes 2, 1/100, true⟩,
    ⟨"VDOP", bytes 2, 1/100, true⟩,
    ⟨"TDOP", bytes 2, 1/100, false⟩]⟩,
  ⟨"GNSS Sats in View", 129540, 0xff, [
    ⟨"SID", bytes 1, 1, false⟩,
    ⟨"Mode", 2, resLookup, false⟩,
    ⟨"Reserved", 6, resBinary, false⟩,
    ⟨"Sats in View", bytes 1, 1, false⟩,
    ⟨"PRN", bytes 1, 1, false⟩,
    ⟨"Elevation", bytes 2, resRadians, false⟩,
    ⟨"Azimuth", bytes 2, resRadians, false⟩,
    ⟨"SNR", bytes 2, 1/100, false⟩,
    ⟨"Range residuals", bytes 4, 1, true⟩,
    ⟨"Status", 4, resLookup, false⟩,
    ⟨"Reserved", 4, resBinary, false⟩]⟩,
  ⟨"Wind Data", 130306, 6, [
    ⟨"SID", bytes 1, 1, false⟩,
    ⟨"Wind Speed", bytes 2, 1/100, false⟩,
    ⟨"Wind Angle", bytes 2, resRadians, false⟩,
    ⟨"Reference", 3, resLookup, false⟩]⟩,
  ⟨"Environmental Parameters", 130310, 7, [
    ⟨"SID", bytes 1, 1, false⟩,
    ⟨"Water Temperature", bytes 2, resTemperature, false⟩,
    ⟨"Outside Ambient Air Temperature", bytes 2, resTemperature, false⟩,
    ⟨"Atmospheric Pressure", bytes 2, resPressure, false⟩]⟩,
  ⟨"Environmental Parameters", 130311, 8, [
    ⟨"SID", bytes 1, 1, false⟩,
    ⟨"Temperature Source", 6, resLookup, false⟩,
    ⟨"Humidity Source", 2, resLookup, false⟩,
    ⟨"Temperature", bytes 2, resTemperature, false⟩,
    ⟨"Humidity", bytes 2, 100/25000, true⟩,
    ⟨"Atmospheric Pressure", bytes 2, resPressure, false⟩]⟩,
  ⟨"Temperature", 130312, 8, [
    ⟨"SID", bytes 1, 1, false⟩,
    ⟨"Temperature Instance", bytes 1, 1, false⟩,
    ⟨"Temperature Source", bytes 1, resLookup, false⟩,
    ⟨"Actual Temperature", bytes 2, resTemperature, false⟩,
    ⟨"Set Temperature", bytes 2, resTemperature, false⟩]⟩,
  ⟨"Humidity", 130313, 8, [
    ⟨"SID", bytes 1, 1, false⟩,
    ⟨"Humidity Instance", bytes 1, 1, false⟩,
    ⟨"Humidity Source", bytes 1, resLookup, false⟩,
    ⟨"Actual Humidity", bytes 2, 100/25000, true⟩,
    ⟨"Set Humidity", bytes 2, 100/25000, true⟩]⟩,
  ⟨"Actual Pressure", 130314, 8, [
    ⟨"SID", bytes 1, 1, false⟩,
    ⟨"Pressure Instance", bytes 1, 1, false⟩,
    ⟨"Pressure Source", bytes 1, resLookup, false⟩,
    ⟨"Pressure", bytes 4, resPressureHires, false⟩]⟩,
  ⟨"GNSS Position Data", 129029, 51, [
    ⟨"SID", bytes 1, 1, false⟩,
    ⟨"Date", bytes 2, resDate, false⟩,
    ⟨"Time", bytes 4, resTime, false⟩,
    ⟨"Latitude", bytes 8, resLatitude, true⟩,
    ⟨"Longitude", bytes 8, resLongitude, true⟩,
    ⟨"Altitude", bytes 8, 1/1000000, true⟩,
    ⟨"GNSS type", 4, resLookup, false⟩,
    ⟨"Method", 4, resLookup, false⟩,
    ⟨"Integrity", 2, resLookup, false⟩,
    ⟨"Reserved", 6, resBinary, false⟩,
    ⟨"Number of SVs", bytes 1, 1, false⟩,
    ⟨"HDOP", bytes 2, 1/100, true⟩,
    ⟨"PDOP", bytes 2, 1/100, true⟩,
    ⟨"Geoidal Separation", bytes 2, 1/100, true⟩,
    ⟨"Reference Stations", bytes 1, 1, false⟩,
    ⟨"Reference Station Type", 4, resLookup, false⟩,
    ⟨"Reference Station ID", 12, 1, false⟩,
    ⟨"Age of DGNSS Corrections", bytes 2, 1/100, false⟩]⟩
]

/-- No two entries of the table have the same PGN. -/
theorem pgn_injective {p q : Pgn} (hp : p ∈ pgnList) (hq : q ∈ pgnList) (h : p.pgn = q.pgn) :
    p = q := by
  have hNodup : (pgnList.map Pgn.pgn).Nodup := by decide
  exact List.inj_on_of_nodup_map hNodup hp hq h

namespace Pgn

/-- The number of bits that the fields take up together. -/
def bits (p : Pgn) : Nat := (p.fieldList.map Field.size).sum

/-- The bytes of a complete payload: the size of the table or what the fields
take up, which for some entries is more. -/
def payloadBytes (p : Pgn) : Nat := max p.size ((p.bits + 7) / 8)

/-- `is_long_`: the message takes more than one frame. -/
def isLong (p : Pgn) : Bool := p.size > 8

/-- The bytes allocated for `data_`. -/
def bufferSize (p : Pgn) : Nat := (p.size / 8 + 1) * 8

end Pgn

/-- The bits in front of entry `j` of a field list. -/
def bitsBefore (fs : List Field) (j : Nat) : Nat := ((fs.take j).map Field.size).sum

@[simp] theorem bitsBefore_zero (fs : List Field) : bitsBefore fs 0 = 0 := rfl

theorem bitsBefore_succ (f : Field) (fs : List Field) (j : Nat) :
    bitsBefore (f :: fs) (j + 1) = f.size + bitsBefore fs j := rfl

theorem bitsBefore_add_size_le {fs : List Field} : ∀ {j : Nat} {f : Field}, fs[j]? = some f →
    bitsBefore fs j + f.size ≤ (fs.map Field.size).sum := by
  induction fs with
  | nil => intro j f hf; cases hf
  | cons g fs ih =>
    intro j f hf
    rw [List.map_cons, List.sum_cons]
    cases j with
    | zero =>
      obtain rfl : g = f := by simpa using hf
      rw [bitsBefore_zero]
      omega
    | succ j =>
      have hRest := ih (j := j) (f := f) (by simpa using hf)
      rw [bitsBefore_succ]
      omega

end Sailbot.Can
