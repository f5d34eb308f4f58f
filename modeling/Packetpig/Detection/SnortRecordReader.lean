/-
SnortRecordReader: reads the alert file that snort writes in its fast format,
one tuple a line.

The calendar of the date formatter is a parameter: it gives the second for the
numbers in front of the milliseconds.
-/

import Packetpig.Library.JavaText
import Packetpig.Library.Pattern
import Packetpig.Pcap.PcapInputStream

namespace Packetpig

open Text

/-- The year is kept as it is written: two digits are placed near the current
date, other numbers are taken literally. -/
structure DateFields where
  month : Int
  day : Int
  year : Bytes
  hour : Int
  minute : Int
  second : Int
deriving DecidableEq, Repr

namespace SimpleDateFormat

def numberText (text : Bytes) : Option (Bytes × Bytes) :=
  let text := text.dropWhile fun letter => letter = space || letter = tab
  let sign := if text.head? = some 45 then [45] else []
  let digits := (text.drop sign.length).takeWhile (isDigit 10)
  if digits = [] then none
  else some (sign ++ digits, text.drop (sign ++ digits).length)

/-- `number.intValue()`. -/
def intValue (digits : Bytes) : Int := ((readInt 10 digits).getD 0).bmod (2 ^ 32)

def delimiter (letter : Byte) (text : Bytes) : Option Bytes :=
  if text.head? = some letter then some text.tail else none

/-- The fields are lenient: every number is accepted, and the digits for `SSS`
are a number of milliseconds. What follows them is not looked at. -/
def parse (calendar : DateFields → Int) (text : Bytes) : Option Int := do
  let (month, text) ← numberText text
  let text ← delimiter 47 text
  let (day, text) ← numberText text
  let text ← delimiter 47 text
  let (year, text) ← numberText text
  let text ← delimiter 45 text
  let (hour, text) ← numberText text
  let text ← delimiter 58 text
  let (minute, text) ← numberText text
  let text ← delimiter 58 text
  let (second, text) ← numberText text
  let text ← delimiter 46 text
  let (millis, _) ← numberText text
  let fields : DateFields :=
    { month := intValue month
      day := intValue day
      year
      hour := intValue hour
      minute := intValue minute
      second := intValue second }
  return 1000 * calendar fields + intValue millis

end SimpleDateFormat

structure SnortTuple where
  sig : Bytes
  priority : Int
  message : Bytes
  proto : Bytes
  src : Bytes
  sport : Int
  dst : Bytes
  dport : Int
deriving DecidableEq, Repr

namespace SnortRecordReader

def notSpace (letter : Byte) : Bool := letter ≠ space

def notColon (letter : Byte) : Bool := letter ≠ colon

/-- `[\d+]`: a digit or a plus sign. -/
def digitOrPlus (letter : Byte) : Bool := isDigit 10 letter || letter = 43

/-- `[\w+]`. -/
def wordOrPlus (letter : Byte) : Bool :=
  isDigit 36 letter || letter = 95 || letter = 43

def tsPattern : Pattern :=
  [.run true true 1 none notSpace, .literal (ascii "  "), .run false true 1 none notSpace,
    .literal (ascii " ")]

def sigPattern : Pattern :=
  [.literal (ascii "["), .run true true 1 none (isDigit 10), .literal (ascii ":"),
    .run true true 1 none (isDigit 10), .literal (ascii ":"),
    .run true true 1 none (isDigit 10), .literal (ascii "] ")]

def messagePattern : Pattern :=
  [.run true false 0 none JavaText.dot, .literal (ascii " [**]"),
    .run false false 0 none JavaText.dot]

def priorityPattern : Pattern :=
  [.literal (ascii "[Priority: "), .run true true 1 (some 1) digitOrPlus, .literal (ascii "] ")]

def protoPattern : Pattern :=
  [.literal (ascii "\x7b"), .run true true 1 none wordOrPlus, .literal (ascii "\x7d ")]

def addressPattern : Pattern :=
  [.run true true 1 none notColon, .run false true 0 none (· = colon),
    .run true true 0 none notSpace]

def p : Pattern :=
  tsPattern ++ (sigPattern ++ (messagePattern ++ (priorityPattern ++ (protoPattern ++
    (addressPattern ++ (.literal (ascii " -> ") :: addressPattern))))))

def group (groups : List Bytes) (index : Nat) : Bytes := groups.getD (index - 1) []

/-- A port that is no number counts as 0. -/
def port (text : Bytes) : Int := (JavaText.parseInt text).getD 0

def readGroups (calendar : DateFields → Int) (groups : List Bytes) :
    Except JavaException (Keyed SnortTuple) :=
  match SimpleDateFormat.parse calendar (group groups 1) with
  | none => .error .ioException
  | some ts =>
      match JavaText.parseInt (group groups 6) with
      | none => .error .numberFormatException
      | some priority =>
          .ok
            { key := ts.tdiv 1000
              tuple :=
                { sig := group groups 2 ++ ascii "_" ++ group groups 3
                  priority
                  message := group groups 5
                  proto := group groups 7
                  src := group groups 8
                  sport := port (group groups 9)
                  dst := group groups 10
                  dport := port (group groups 11) } }

/-- `null` for an empty alert file. -/
def initializeReader (alert : Bytes) : Option Bytes :=
  if alert = [] then none else some alert

/-- What `readLine` makes of a file that can be read to its end. -/
def readable (text : Bytes) : Except JavaException (Option (Bytes × Bytes)) :=
  .ok (JavaText.readLine text)

def nextKeyValue (calendar : DateFields → Int)
    (readLine : Bytes → Except JavaException (Option (Bytes × Bytes))) :
    Option Bytes → Pull (Option Bytes) (Keyed SnortTuple) Ending
  | none => .stop .returnedFalse none
  | some text =>
      match readLine text with
      | .error _ => .stop .returnedFalse (some text)
      | .ok none => .stop .returnedFalse (some text)
      | .ok (some (line, rest)) =>
          match p.find line with
          | none => .stop .returnedFalse (some rest)
          | some (groups, _) =>
              match readGroups calendar groups with
              | .error exception => .stop (.threw exception) (some rest)
              | .ok keyed => .item keyed (some rest)

end SnortRecordReader

end Packetpig
