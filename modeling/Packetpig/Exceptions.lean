/-
The exceptions that leave a function of the Java readers or of the Python
scripts.
-/

import Packetpig.Library.Fallible
import Packetpig.Library.Text

namespace Packetpig

open Text

/-- The exceptions that reach a caller. Subclasses count as their superclass,
so `EOFException` is an `IOException`. -/
inductive JavaException where
  | ioException
  | negativeArraySizeException
  | bufferUnderflowException
  | nullPointerException
  | numberFormatException
  | arrayIndexOutOfBoundsException
  | illegalStateException
deriving DecidableEq, Repr

/-- `ParsingException` is that of tcp.py; `other` is any exception of a library. -/
inductive PyException where
  | parsingException (message : Bytes)
  | ioError (message : Bytes)
  | zlibError (message : Bytes)
  | valueError
  | indexError
  | keyError
  | other (name : Bytes)
deriving DecidableEq, Repr

end Packetpig
