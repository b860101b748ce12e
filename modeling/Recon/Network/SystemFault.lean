import Recon.Error
import Recon.Text.Digits

/-!
# Faults of the operating system

The system reports a fault by a number.  Its text is the usual description with the number behind
it.
-/

namespace Recon

structure SystemFault where
  number : Nat
deriving DecidableEq, Repr

namespace SystemFault

def descriptions : List (Nat × String) :=
  [(1, "Operation not permitted"), (2, "No such file or directory"), (3, "No such process"),
    (4, "Interrupted system call"), (5, "Input/output error"), (6, "No such device or address"),
    (7, "Argument list too long"), (9, "Bad file descriptor"),
    (11, "Resource temporarily unavailable"), (12, "Cannot allocate memory"),
    (13, "Permission denied"), (14, "Bad address"), (16, "Device or resource busy"),
    (17, "File exists"), (19, "No such device"), (22, "Invalid argument"),
    (23, "Too many open files in system"), (24, "Too many open files"), (27, "File too large"),
    (28, "No space left on device"), (32, "Broken pipe"), (38, "Function not implemented"),
    (71, "Protocol error"), (88, "Socket operation on non-socket"),
    (89, "Destination address required"), (90, "Message too long"),
    (91, "Protocol wrong type for socket"), (92, "Protocol not available"),
    (93, "Protocol not supported"), (94, "Socket type not supported"),
    (95, "Operation not supported"), (97, "Address family not supported by protocol"),
    (98, "Address already in use"), (99, "Cannot assign requested address"),
    (100, "Network is down"), (101, "Network is unreachable"),
    (102, "Network dropped connection on reset"), (103, "Software caused connection abort"),
    (104, "Connection reset by peer"), (105, "No buffer space available"),
    (106, "Transport endpoint is already connected"), (107, "Transport endpoint is not connected"),
    (110, "Connection timed out"), (111, "Connection refused"), (112, "Host is down"),
    (113, "No route to host"), (114, "Operation already in progress"),
    (115, "Operation now in progress")]

def digits (f : SystemFault) : String := String.ofList (Text.decimal f.number)

def message (f : SystemFault) : String :=
  let description := ((descriptions.find? fun d => d.1 == f.number).map (·.2)).getD
    ("Unknown error " ++ f.digits)
  description ++ " (os error " ++ f.digits ++ ")"

def isPermission (f : SystemFault) : Bool := f.number == 1 || f.number == 13

def isPatience (f : SystemFault) : Bool := f.number == 11 || f.number == 110

def isRefusal (f : SystemFault) : Bool := f.number == 111

def unreachable : SystemFault := ⟨101⟩

def toError (f : SystemFault) : Error := ⟨.network, f.message⟩

def toOpenError (f : SystemFault) : Error :=
  if f.isPermission then ⟨.permission, "Permission denied for raw socket"⟩
  else ⟨.rawSocket, f.message⟩

def toReadError (f : SystemFault) : Error := ⟨.network, "Socket receive error: " ++ f.message⟩

end SystemFault

end Recon
