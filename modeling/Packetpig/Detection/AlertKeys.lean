/-
The keys of alerts beside those of the packets that raised them.

The six digits behind the second are microseconds in the alert file and
milliseconds to the date formatter.
-/

import Packetpig.Detection.CoveredAlerts

namespace Packetpig

open Text

namespace SnortRecordReader

/-- The reader returns `keyed` for the first line of the text, where the pattern
finds the timestamp. -/
structure Stamped (calendar : DateFields → Int) (timestamp : SnortTimestamp) (text : Bytes)
    (keyed : Keyed SnortTuple) : Prop where
  returned : ∃ after, nextKeyValue calendar readable (some text) = .item keyed after
  stamped : ∃ line rest found, JavaText.readLine text = some (line, rest) ∧
    p.find line = some found ∧ group found.1 1 = timestamp.text

structure Raised (calendar : DateFields → Int) (timestamp : SnortTimestamp)
    (packet : PcapPacket) : Prop where
  second : packet.packetHeader.tsSec.toInt = calendar timestamp.fields
  bounded : packet.packetHeader.tsSec.toNat < 2 ^ 31
  micros : packet.packetHeader.tsUsec.toNat = timestamp.micros

/-- Alert and packet have the second of the timestamp as their key and fall
into the same bin. -/
structure KeyAligned (calendar : DateFields → Int) (timestamp : SnortTimestamp)
    (packet : PcapPacket) (key : Int) : Prop where
  second : key = calendar timestamp.fields
  joins : key = packetKey packet
  bins : ∀ width, key.tdiv width = (packetKey packet).tdiv width

variable {calendar : DateFields → Int} {timestamp : SnortTimestamp} {packet : PcapPacket}

theorem key_of_stamped {text : Bytes} {keyed : Keyed SnortTuple}
    (stamped : Stamped calendar timestamp text keyed) :
    keyed.key = (1000 * calendar timestamp.fields + (timestamp.micros : Nat)).tdiv 1000 := by
  rcases stamped with ⟨⟨after, returned⟩, line, rest, found, atLine, matched, stamp⟩
  obtain ⟨_, line', rest', found', same, atLine', matched', read, -⟩ :=
    nextKeyValue_eq_item returned
  cases same
  rw [readable, atLine, Except.ok.injEq, Option.some.injEq, Prod.mk.injEq] at atLine'
  rcases atLine' with ⟨rfl, rfl⟩
  rw [matched, Option.some.injEq] at matched'
  subst matched'
  obtain ⟨ts, _, parsed, -, rfl⟩ := readGroups_eq_ok read
  rw [stamp, SimpleDateFormat.parse_timestamp, Option.some.injEq] at parsed
  rw [← parsed]

theorem packetKey_of_raised (raised : Raised calendar timestamp packet) :
    packetKey packet = calendar timestamp.fields ∧ 0 ≤ calendar timestamp.fields := by
  have micros := raised.micros
  have fraction := timestamp.micros.isLt
  have usec := Word.toInt_eq_toNat (show packet.packetHeader.tsUsec.toNat < 2 ^ 31 by omega)
  have sec := Word.toInt_eq_toNat raised.bounded
  have millis : (packet.packetHeader.tsUsec.toNat : Int).tdiv 1000 =
      packet.packetHeader.tsUsec.toNat / 1000 := Int.tdiv_eq_ediv_of_nonneg (by omega)
  rw [← raised.second, packetKey, usec, sec, millis, Int.tdiv_eq_ediv_of_nonneg (by omega)]
  constructor <;> omega

/-- The keys agree exactly when the fraction is below a thousand microseconds. -/
theorem keyAligned_iff {text : Bytes} {keyed : Keyed SnortTuple}
    (stamped : Stamped calendar timestamp text keyed)
    (raised : Raised calendar timestamp packet) :
    KeyAligned calendar timestamp packet keyed.key ↔ (timestamp.micros : Nat) < 1000 := by
  obtain ⟨packetKeyIs, nonneg⟩ := packetKey_of_raised raised
  have key := key_of_stamped stamped
  rw [Int.tdiv_eq_ediv_of_nonneg (by omega)] at key
  constructor
  · intro aligned
    have same := aligned.second
    omega
  · intro small
    have same : keyed.key = calendar timestamp.fields := by omega
    rw [same]
    exact ⟨rfl, packetKeyIs.symm, fun width => by rw [packetKeyIs]⟩

def packetAt (micros : Word) : PcapPacket := ⟨⟨1322684611, micros, 0, 0⟩, []⟩

private theorem alertAt_stamped (micros : Fin 1000000) :
    Stamped (fun _ => 1322684611) (alertAt micros).timestamp
      ((alertAt micros).line ++ [lineFeed])
      ⟨(1000 * 1322684611 + (micros : Nat) : Int).tdiv 1000, (alertAt micros).tuple⟩ :=
  { returned := ⟨_, nextKeyValue_covered _ (alertAt_covered micros) []⟩
    stamped := ⟨_, _, _, readLine_line (alertAt micros) [],
      find_line (alertAt_covered micros), rfl⟩ }

theorem keyAligned_early :
    KeyAligned (fun _ => 1322684611) (alertAt 725).timestamp (packetAt 725) 1322684611 :=
  (keyAligned_iff (alertAt_stamped 725) ⟨by decide, by decide, by decide⟩).mpr (by decide)

/-- The key is 674 seconds late. -/
theorem alert_key_late : ∃ keyed,
    Stamped (fun _ => 1322684611) (alertAt 674725).timestamp
      ((alertAt 674725).line ++ [lineFeed]) keyed ∧
    Raised (fun _ => 1322684611) (alertAt 674725).timestamp (packetAt 674725) ∧
    keyed.key = packetKey (packetAt 674725) + 674 ∧
    ¬ KeyAligned (fun _ => 1322684611) (alertAt 674725).timestamp (packetAt 674725) keyed.key := by
  refine ⟨_, alertAt_stamped 674725, ⟨by decide, by decide, by decide⟩, by decide, ?_⟩
  intro aligned
  exact absurd aligned.joins (by decide)

end SnortRecordReader

end Packetpig
