/-!
What a user can set: how identifiers are shown, and the seed of random ones.
-/

namespace Ident160

structure DisplaySettings where
  /-- Hexadecimal digits in uppercase, as debuggers show them. -/
  uppercase : Bool := true
  /-- The limbs of a value listed below it. -/
  showLimbs : Bool := true
deriving DecidableEq

structure RandomSettings where
  /-- The seed for identifiers that can be drawn again, if any. -/
  seed : Option UInt64 := none
deriving DecidableEq

structure Settings where
  display : DisplaySettings := {}
  random : RandomSettings := {}
deriving DecidableEq

end Ident160
