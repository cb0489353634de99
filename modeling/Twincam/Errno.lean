/-!
# Error codes

The `errno` values the program returns, with a minus sign, or compares with.
-/

namespace Twincam

def ENOMEM : Int := 12
def ENODEV : Int := 19
def EINVAL : Int := 22
def EPIPE : Int := 32

end Twincam
