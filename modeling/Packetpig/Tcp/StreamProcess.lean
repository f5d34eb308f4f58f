/-
StreamProcess of tcp.py: the options of the command line.
-/

import Packetpig.Library.ArgumentParser

namespace Packetpig

open Text

/-- The namespace that `parse_args` returns. -/
structure StreamConfig where
  filename : Option Bytes
  outputFormat : Bytes
  outputMode : Bytes
  extractFiles : Bool
  mimeType : Option Bytes
  outputFile : Bytes
deriving DecidableEq, Repr

namespace StreamProcess

open ArgumentParser

def defaults : StreamConfig :=
  { filename := none
    outputFormat := ascii "json"
    outputMode := ascii "base"
    extractFiles := false
    mimeType := none
    outputFile := ascii "/dev/stdout" }

def optionStrings : List (Bytes × Action StreamConfig) :=
  [(ascii "-h", .help),
    (ascii "--help", .help),
    (ascii "-r", .store fun config value => { config with filename := some value }),
    (ascii "-of", .store fun config value => { config with outputFormat := value }),
    (ascii "-om", .store fun config value => { config with outputMode := value }),
    (ascii "-xf", .storeTrue fun config => { config with extractFiles := true }),
    (ascii "-i", .store fun config value => { config with mimeType := some value }),
    (ascii "-o", .store fun config value => { config with outputFile := value })]

def parseArgs (args : List Bytes) : Option StreamConfig :=
  ArgumentParser.parseArgs optionStrings defaults none args

end StreamProcess

end Packetpig
