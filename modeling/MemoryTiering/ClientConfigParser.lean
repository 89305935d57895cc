import MemoryTiering.ConfigParser

/-!
# The clients on the command line

`_split`, `_parseClientConfigs` and the order of checks in `parse`, of
`src/common/ConfigParser.cpp`. Sizes come as text and go through `std::stoul`, which is lenient
about what surrounds the digits and throws when there are none or too many. Nothing catches it.
-/

set_option autoImplicit false

namespace MemoryTiering

/-- A `std::string`. -/
abbrev Text := List Char

/-! ## `std::stoul` -/

/-- What `std::stoul` throws. -/
inductive StoulError where
  | invalidArgument
  | outOfRange
  deriving DecidableEq, Repr

/-- White space, in the C locale. -/
def isspace (c : Char) : Bool := c = ' ' || ('\t' ≤ c && c ≤ '\r')

/-- The optional sign: whether there is a minus, and what comes after. -/
def takeSign : Text → Bool × Text
  | '-' :: s => (true, s)
  | '+' :: s => (false, s)
  | s => (false, s)

/-- `std::stoul` in base ten: white space is skipped, and what follows the digits is not looked
at. A negative number is negated in `unsigned long`. -/
def stoul (s : Text) : Except StoulError SizeT :=
  let signed := takeSign (s.dropWhile isspace)
  let digits := signed.2.takeWhile Char.isDigit
  let value := Nat.ofDigitChars 10 digits 0
  if digits = [] then .error .invalidArgument
  else if 2 ^ 64 ≤ value then .error .outOfRange
  else .ok (if signed.1 then -UInt64.ofNat value else UInt64.ofNat value)

/-! ## `_split` -/

/-- The loop over `getline`, which has extracted `item` so far. At the end of the stream, having
extracted nothing is having no item. -/
def splitFrom (delim : Char) (item : Text) : Text → List Text
  | [] => if item = [] then [] else [item]
  | c :: ss =>
    if c = delim then item :: splitFrom delim [] ss else splitFrom delim (item ++ [c]) ss

def split (s : Text) (delim : Char) : List Text := splitFrom delim [] s

/-! ## `_parseClientConfigs` -/

/-- The chain of tests on `patterns[i]`. -/
def parsePattern (pattern : Text) : Option AccessPattern :=
  if pattern = "uniform".toList then some .uniform
  else if pattern = "hot".toList then some .hot
  else if pattern = "zipfian".toList then some .zipfian
  else none

/-- One round of the loop: `none` is `return false`, an error an exception on its way out. The sizes
are read before the pattern is. -/
def parseClientConfig (numTiers : Nat) (pattern tierSize : Text) :
    Except StoulError (Option ClientConfig) :=
  let sizes := split tierSize ' '
  if sizes.length ≠ numTiers then .ok none
  else do
    let tierSizes ← sizes.mapM stoul
    match parsePattern pattern with
    | some pattern => .ok (some { pattern, tierSizes })
    | none => .ok none

/-- The loop, over patterns and sizes side by side. -/
def parseEachClient (numTiers : Nat) :
    List (Text × Text) → Except StoulError (Option (List ClientConfig))
  | [] => .ok (some [])
  | (pattern, tierSize) :: rest => do
    match ← parseClientConfig numTiers pattern tierSize with
    | none => .ok none
    | some config =>
      let configs ← parseEachClient numTiers rest
      .ok (configs.map (config :: ·))

def parseClientConfigs (numTiers : Nat) (patterns tierSizes : List Text) :
    Except StoulError (Option (List ClientConfig)) :=
  if patterns.length ≠ tierSizes.length then .ok none
  else parseEachClient numTiers (patterns.zip tierSizes)

/-- `parse`, from the tier count on. -/
def parse (numTiers : Nat) (memSizes : List SizeT) (patterns tierSizes : List Text) :
    Except StoulError (Option (ServerMemoryConfig × List ClientConfig)) :=
  if numTiers < 2 ∨ 3 < numTiers then .ok none
  else
    match parseServerConfig numTiers memSizes with
    | none => .ok none
    | some server => do
      match ← parseClientConfigs numTiers patterns tierSizes with
      | none => .ok none
      | some clients =>
        .ok (if validateMemoryConfiguration server clients then some (server, clients) else none)

end MemoryTiering
