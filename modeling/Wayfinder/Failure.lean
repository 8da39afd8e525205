/-!
# Failures

What can go wrong, as causes, and the words for each.  A failure of the machine (a file
that is missing, a program that does not start) is the innermost part of a chain; the
outermost part says what was attempted.

* `OsFault` is a refusal by the machine.
* `Failure` is a request that could not be answered.
* `Failure.chain` lists the words from the outermost to the innermost, `Failure.message`
  is the outermost, and `Failure.report` joins them all.
-/

namespace Wayfinder

/-- A refusal by the machine. -/
inductive OsFault where
  | notFound
  | permissionDenied
  | notADirectory
  | isADirectory
  | nameTooLong
  /-- A path holds the character that ends paths. -/
  | zeroInPath
  /-- The call of a program holds the character that ends its parts. -/
  | zeroInCall
  /-- The bytes of a file are not text. -/
  | notUtf8
deriving Repr, DecidableEq

/-- The words for a refusal. -/
def OsFault.message : OsFault → String
  | .notFound => "No such file or directory (os error 2)"
  | .permissionDenied => "Permission denied (os error 13)"
  | .notADirectory => "Not a directory (os error 20)"
  | .isADirectory => "Is a directory (os error 21)"
  | .nameTooLong => "File name too long (os error 36)"
  | .zeroInPath => "file name contained an unexpected NUL byte"
  | .zeroInCall => "nul byte found in provided data"
  | .notUtf8 => "stream did not contain valid UTF-8"

/-- A request that could not be answered. -/
inductive Failure where
  /-- A document could not be read. -/
  | unreadable (path : String) (fault : OsFault)
  /-- A request names a document that does not exist. -/
  | noDocument (path : String) (fault : OsFault)
  /-- The workspace does not exist. -/
  | noWorkspace (path : String) (fault : OsFault)
  /-- An external tool could not be started. -/
  | toolNotStarted (program : String) (fault : OsFault)
  /-- An external tool ended without success. -/
  | toolFailed (complaint : String)
  /-- A request gives neither a path nor a text. -/
  | nothingGiven
  /-- No method name stands at the place asked about; the line is from zero. -/
  | nothingThere (path : String) (line : Nat)
  /-- A line or a column is given as zero where they count from one. -/
  | notFromOne
  /-- A failure met elsewhere, with its words from the outermost to the innermost. -/
  | reported (words : List String)
deriving Repr, DecidableEq

namespace Failure

/-- The words for a failure, from the outermost to the innermost. -/
def chain : Failure → List String
  | .unreadable path fault => ["Failed to read source file: " ++ path, fault.message]
  | .noDocument path fault => ["Document not found: " ++ path, fault.message]
  | .noWorkspace path fault => ["Workspace not found: " ++ path, fault.message]
  | .toolNotStarted program fault => ["Failed to run " ++ program, fault.message]
  | .toolFailed complaint => ["gopls implementation failed: " ++ complaint]
  | .nothingGiven => ["Either `path` or `text` is required"]
  | .nothingThere path line =>
      ["No interface or receiver method at " ++ path ++ ":" ++ toString (line + 1)]
  | .notFromOne => ["Lines and columns are 1-based"]
  | .reported words => words

/-- The outermost words. -/
def message (failure : Failure) : String :=
  failure.chain.head?.getD ""

/-- All the words, joined. -/
def report (failure : Failure) : String :=
  ": ".intercalate failure.chain

end Failure

end Wayfinder
