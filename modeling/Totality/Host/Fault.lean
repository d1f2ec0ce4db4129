/-!
# Faults of the host

What the host answers where it cannot do what it is asked, with its own wording.
-/

namespace Totality

inductive HostFault where
  | notFound
  | notADirectory
  | isADirectory
  | nameTooLong
  | nulInName
  | nulInArgument
  | notUtf8
  deriving DecidableEq, Repr

def HostFault.message : HostFault → String
  | .notFound => "No such file or directory (os error 2)"
  | .notADirectory => "Not a directory (os error 20)"
  | .isADirectory => "Is a directory (os error 21)"
  | .nameTooLong => "File name too long (os error 36)"
  | .nulInName => "file name contained an unexpected NUL byte"
  | .nulInArgument => "nul byte found in provided data"
  | .notUtf8 => "stream did not contain valid UTF-8"

end Totality
