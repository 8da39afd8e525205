/-!
# Media types

The written form of a media type: a type and a subtype divided by a slash, a suffix behind
the last plus sign of the subtype, and parameters behind semicolons.

Case has no meaning.  A value of a parameter stands plain or in double quotes.
-/

namespace Wayfinder

/-- A media type without its parameters, in lower case. -/
structure MediaType where
  kind : String
  subtype : String
  suffix : Option String
deriving Repr, DecidableEq

namespace MediaType

/-- Whether a character may stand in a name. -/
def isToken (c : Char) : Bool :=
  c.isAlphanum || "!#$%&'*+-.^_`|~".toList.contains c

/-- Whether a character may stand between double quotes. -/
def isQuotable (c : Char) : Bool :=
  31 < c.toNat && c.toNat != 127

/-! ## Parameters -/

/-- The text behind the closing quote.  A quote closes only behind at least one character, and
a backslash is a character like any other. -/
def behindQuote : Bool → List Char → Option (List Char)
  | _, [] => none
  | first, c :: rest =>
      if c = '"' && !first then some rest
      else if isQuotable c then behindQuote false rest
      else none

/-- The text behind a value and the semicolon that ends it. -/
def behindValue (text : List Char) : Option (List Char) :=
  match text with
  | '"' :: quoted => do
      let rest ← behindQuote true quoted
      match rest.dropWhile (· == ' ') with
      | [] => some []
      | c :: more => if c = ';' then some more else none
  | _ =>
      match text.dropWhile isToken with
      | [] => some []
      | c :: more => if c = ';' && (text.head?.any isToken) then some more else none

/-- The text behind a parameter and the semicolon that ends it. -/
def behindParameter (text : List Char) : Option (List Char) :=
  match text.dropWhile isToken with
  | '=' :: value => if text.head?.any isToken then behindValue value else none
  | _ => none

/-- Whether a text is a list of parameters, each read with one unit of fuel.  Blanks may stand
before a name. -/
def areParametersWith : Nat → List Char → Bool
  | fuel, text =>
      match fuel, text.dropWhile (· == ' ') with
      | _, [] => true
      | 0, _ => false
      | fuel + 1, text =>
          match behindParameter text with
          | some rest => areParametersWith fuel rest
          | none => false

/-- Whether a text is a list of parameters. -/
def areParameters (text : List Char) : Bool :=
  areParametersWith text.length text

/-! ## Types -/

/-- A name in lower case. -/
def lower (name : List Char) : String :=
  String.ofList (name.map Char.toLower)

/-- Divides a subtype at its last plus sign, which must not be its first character. -/
def divide (name : List Char) : List Char × Option (List Char) :=
  let isOther (c : Char) : Bool := c != '+'
  match name.reverse.dropWhile isOther with
  | _ :: c :: before => ((c :: before).reverse, some (name.reverse.takeWhile isOther).reverse)
  | _ => (name, none)

/-- Reads a media type. -/
def parse? (text : String) : Option MediaType :=
  let text := text.toList
  let kind := text.takeWhile isToken
  match text.dropWhile isToken with
  | '/' :: rest =>
      let name := rest.takeWhile isToken
      let wellEnded :=
        match rest.dropWhile isToken with
        | [] => true
        | c :: parameters => c == ';' && !name.isEmpty && areParameters parameters
      if !kind.isEmpty && wellEnded && text.all (·.toNat < 128) then
        let (subtype, suffix) := divide name
        some { kind := lower kind, subtype := lower subtype, suffix := suffix.map lower }
      else none
  | _ => none

/-- Whether a media type is one of JSON. -/
def isJson (media : MediaType) : Bool :=
  media.kind == "application" && (media.subtype == "json" || media.suffix == some "json")

end MediaType

end Wayfinder
