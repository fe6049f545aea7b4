import Mathlib

/-! The negative return codes the modelled drivers return and compare. A code handed up from a bus
    or a subsystem that the drivers only pass on is `other`. -/

namespace GeminiLinux

inductive Errno where
  | ENOMEM | ENODEV | EINVAL | ETIMEDOUT | EBADMSG | EPROBE_DEFER
  | other (code : ℕ)
  deriving DecidableEq

/-- The number, as it is returned and printed. -/
def Errno.ret : Errno → ℤ
  | .ENOMEM => -12
  | .ENODEV => -19
  | .EINVAL => -22
  | .ETIMEDOUT => -110
  | .EBADMSG => -74
  | .EPROBE_DEFER => -517
  | .other code => -code

end GeminiLinux
