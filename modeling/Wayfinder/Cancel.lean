import Wayfinder.Sweep

/-!
# Cancel tokens

A request to give up is made through a token.  Tokens share flags: a token and its clones
stand for one flag, which any of them may raise and all of them see.  A flag that was
raised is never lowered.

* `Flags` are the flags that exist, and `Token` stands for one of them.
* `Act` is what is done to the flags, and `Flags.perform` does it.
* `Token.signal` is what a scan observes of a token, check by check.
-/

namespace Wayfinder

/-- A token stands for the flag with the given number. -/
structure Token where
  flag : Nat
deriving Repr, DecidableEq

/-- The flags that tokens share. -/
structure Flags where
  raised : List Bool
deriving Repr, DecidableEq

/-- Another token for the same flag. -/
def Token.clone (token : Token) : Token :=
  token

namespace Flags

/-- No flag has been made. -/
def none : Flags :=
  { raised := [] }

/-- The token that the next flag will have. -/
def nextToken (flags : Flags) : Token :=
  { flag := flags.raised.length }

/-- The flags with one more, which is not raised. -/
def create (flags : Flags) : Flags :=
  { raised := flags.raised ++ [false] }

/-- The flags with that of a token raised. -/
def cancel (flags : Flags) (token : Token) : Flags :=
  { raised := flags.raised.set token.flag true }

/-- Whether the flag of a token is raised. -/
def isCancelled (flags : Flags) (token : Token) : Bool :=
  flags.raised[token.flag]?.getD false

end Flags

/-- What is done to the flags. -/
inductive Act where
  | create
  | cancel (token : Token)
deriving Repr, DecidableEq

/-- The flags after an act. -/
def Flags.perform (flags : Flags) : Act → Flags
  | .create => flags.create
  | .cancel token => flags.cancel token

/-- What a scan observes of a token, if `history` are the flags at its successive checks. -/
def Token.signal (token : Token) (history : Nat → Flags) : Signal :=
  fun check => (history check).isCancelled token

end Wayfinder
