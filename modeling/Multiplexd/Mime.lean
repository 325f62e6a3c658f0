import Multiplexd.Lib.Json

/-!
# Media types

`mime_check_media` of `shim/util.c`, over the tokenizer of `net/mime.c`: a type, a subtype and
parameters, of which the last one named `version` is handed out. The buffer is a C string, cut in place;
here each cut is a list.
-/

namespace Multiplexd

namespace Mime

/-- Space and horizontal tab. -/
def isblank (c : UInt8) : Bool := c = 0x20 || c = 0x09

def iscntrl (c : UInt8) : Bool := c < 0x20 || c = 0x7f

def tolower (c : UInt8) : UInt8 := if 0x41 ≤ c && c ≤ 0x5a then c + 0x20 else c

def strlower (s : List UInt8) : List UInt8 := s.map tolower

/-- The characters `()<>@,;:\"/[]?=`. -/
def istspecial (c : UInt8) : Bool :=
  [0x28, 0x29, 0x3c, 0x3e, 0x40, 0x2c, 0x3b, 0x3a, 0x5c, 0x22, 0x2f, 0x5b, 0x5d, 0x3f, 0x3d].contains c

def istoken (c : UInt8) : Bool := 32 < c && c < 127 && !istspecial c

/-- `skip_lwsp`. A line break is white space only where it folds a blank. -/
def skipLwsp : List UInt8 → List UInt8
  | [] => []
  | c :: rest =>
    if isblank c then skipLwsp rest
    else
      match rest with
      | lf :: b :: rest => if c = 0x0d ∧ lf = 0x0a ∧ isblank b then skipLwsp rest else c :: lf :: b :: rest
      | _ => c :: rest

/-- The tail of `trim_lwsp`: the string up to its last octet that is not in a run of white space. -/
def trimEnd : List UInt8 → List UInt8
  | [] => []
  | c :: rest =>
    if isblank c then (if trimEnd rest = [] then [] else c :: trimEnd rest)
    else
      match rest with
      | lf :: b :: rest =>
        if c = 0x0d ∧ lf = 0x0a ∧ isblank b then
          (if trimEnd rest = [] then [] else c :: lf :: b :: trimEnd rest)
        else c :: trimEnd (lf :: b :: rest)
      | rest => c :: trimEnd rest

def trimLwsp (s : List UInt8) : List UInt8 := trimEnd (skipLwsp s)

/-- `mime_parse`: type, subtype and what follows the first semicolon. -/
def parse (s : List UInt8) : Option (List UInt8 × List UInt8 × List UInt8) :=
  let head := s.takeWhile (· ≠ 0x3b)
  let next := (s.dropWhile (· ≠ 0x3b)).drop 1
  if 0x2f ∈ head then
    let type := strlower (trimLwsp (head.takeWhile (· ≠ 0x2f)))
    let subtype := strlower (trimLwsp ((head.dropWhile (· ≠ 0x2f)).drop 1))
    if type = [] ∨ ¬ type.all istoken ∨ subtype = [] ∨ ¬ subtype.all istoken then none
    else some (type, subtype, next)
  else none

/-- `parse_key`: the attribute and what follows the equals sign. -/
def parseKey (s : List UInt8) : Option (List UInt8 × List UInt8) :=
  let key := s.takeWhile istoken
  if key = [] then none
  else
    match skipLwsp (s.dropWhile istoken) with
    | c :: rest => if c = 0x3d then some (key, rest) else none
    | [] => none

/-- `end_value`, without the cut: what follows the separator. -/
def endValue (s : List UInt8) : Option (List UInt8) :=
  match skipLwsp s with
  | [] => some []
  | c :: rest => if c = 0x3b then some rest else none

def parseQuoted : List UInt8 → Option (List UInt8 × List UInt8)
  | [] => none
  | c :: rest =>
    if c = 0x22 then (endValue rest).map fun next => ([], next)
    else if c = 0x5c then
      match rest with
      | [] => none
      | ch :: rest =>
        if iscntrl ch ∧ ch ≠ 0x09 then none else (parseQuoted rest).map fun r => (ch :: r.1, r.2)
    else if iscntrl c ∧ c ≠ 0x09 then none
    else (parseQuoted rest).map fun r => (c :: r.1, r.2)

def parseValue (s : List UInt8) : Option (List UInt8 × List UInt8) :=
  match s with
  | 0x22 :: rest => parseQuoted rest
  | s =>
    let value := s.takeWhile istoken
    if value = [] then none else (endValue (s.dropWhile istoken)).map fun next => (value, next)

inductive Param where
  | malformed
  | done
  | param (key value next : List UInt8)
deriving Repr, DecidableEq

/-- `mime_parseparam`. An attribute with a star is refused. -/
def parseparam (s : List UInt8) : Param :=
  match skipLwsp s with
  | [] => .done
  | c :: s =>
    match parseKey (c :: s) with
    | none => .malformed
    | some (key, rest) =>
      match parseValue (skipLwsp rest) with
      | none => .malformed
      | some (value, next) => if 0x2a ∈ strlower key then .malformed else .param (strlower key) value next

end Mime

/-- `enum mime_check_result`, with the version handed out. -/
inductive MimeCheck where
  | ok (version : Option (List UInt8))
  | badType
  | malformed
deriving Repr, DecidableEq

namespace Mime

/-- The loop of `mime_check_media`; every turn consumes at least one octet. -/
def params : Nat → List UInt8 → Option (List UInt8) → MimeCheck
  | 0, _, _ => .malformed
  | fuel + 1, s, version =>
    match parseparam s with
    | .malformed => .malformed
    | .done => .ok version
    | .param key value next => params fuel next (if key = ascii "version" then some value else version)

end Mime

def mimeCheckMedia (s subtype : List UInt8) : MimeCheck :=
  match Mime.parse s with
  | none => .badType
  | some (type, sub, next) =>
    if type ≠ ascii "application" ∨ sub ≠ subtype then .badType else Mime.params (next.length + 1) next none

example : mimeCheckMedia (ascii "Application / X-Proto ; a=\"b;c\" ;version=12 ") (ascii "x-proto")
    = .ok (some (ascii "12")) := by decide +kernel

end Multiplexd
