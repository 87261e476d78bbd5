import Mathlib.Data.Int.Notation

/-!
# Error numbers

Linux values of the `errno` constants the sources return, negated, as results.
A result of `0` is success.
-/

namespace Kcf.Errno

def enoent : Int := 2
def esrch : Int := 3
def eio : Int := 5
def e2big : Int := 7
def ebadf : Int := 9
def echild : Int := 10
def eagain : Int := 11
def enomem : Int := 12
def eacces : Int := 13
def efault : Int := 14
def ebusy : Int := 16
def eexist : Int := 17
def enodev : Int := 19
def einval : Int := 22
def enospc : Int := 28
def enametoolong : Int := 36
def enodata : Int := 61
def eproto : Int := 71
def eoverflow : Int := 75
def emsgsize : Int := 90
def eprototype : Int := 91
def eprotonosupport : Int := 93
def enotsup : Int := 95
def eaddrinuse : Int := 98
def econnreset : Int := 104
def enotconn : Int := 107
def eshutdown : Int := 108
def etimedout : Int := 110
def ealready : Int := 114
def einprogress : Int := 115
def estale : Int := 116
def ecanceled : Int := 125
def eownerdead : Int := 130
def enotrecoverable : Int := 131

end Kcf.Errno

namespace Kcf

/-- The negated error number, as an `int`. -/
def errorCode (errno : Int) : Int32 := Int32.ofInt (-errno)

/-- A call that fails returns a negative code. -/
def Negative {α : Type} (result : Except Int32 α) : Prop :=
  ∀ ⦃code⦄, result = .error code → code < 0

namespace Negative

variable {α : Type}

theorem ok (value : α) : Negative (.ok value : Except Int32 α) := by
  intro code same
  cases same

theorem error {code : Int32} (negative : code < 0) : Negative (.error code : Except Int32 α) := by
  intro other same
  cases same
  exact negative

end Negative

end Kcf
