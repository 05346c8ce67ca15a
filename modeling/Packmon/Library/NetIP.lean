import Packmon.Library.GoText
import Packmon.Library.JsonStrings

/-!
# Addresses of hosts

The textual forms of addresses (`parseAddr`): four decimal fields without leading zeros, or up to eight
hexadecimal groups of which one run of zeros may be left out, the last two of which may be written as four
decimal fields, with an optional zone.  A prefix holds the addresses of its family, without a zone, that
agree with it in its leading bits (`Prefix.contains`).
-/

namespace NetIP

/-- An address; only the longer form has a zone. -/
inductive Addr where
  | v4 (bits : BitVec 32)
  | v6 (bits : BitVec 128) (zone : String)
  deriving DecidableEq

/-! ## Reading -/

def isDecimal (c : Char) : Bool := '0' ≤ c && c ≤ '9'

/-- A field of one to three digits, up to 255 and without a leading zero. -/
def parseField (digits : List Char) : Option ℕ :=
  let value := digits.foldl (fun value c => value * 10 + (c.toNat - '0'.toNat)) 0
  if digits = [] ∨ !digits.all isDecimal ∨ (1 < digits.length ∧ digits.head? = some '0') ∨ 255 < value
  then none
  else some value

/-- Four fields, as two groups of 16 bits. -/
def parseIPv4Fields (text : List Char) : Option (ℕ × ℕ) :=
  match (text.splitOn '.').mapM parseField with
  | some [a, b, c, d] => some (a * 256 + b, c * 256 + d)
  | _ => none

def isHex (c : Char) : Bool := (JsonStrings.hexValue c).isSome

def hexNumber (digits : List Char) : ℕ :=
  digits.foldl (fun value c => value * 16 + (JsonStrings.hexValue c).getD 0) 0

/-- The groups of 16 bits, at most `room` more than there are, and where the run of zeros was left out. -/
def parseGroups : ℕ → List ℕ → Option ℕ → List Char → Option (List ℕ × Option ℕ)
  | 0, groups, ellipsis, text => if text = [] then some (groups, ellipsis) else none
  | room + 1, groups, ellipsis, text =>
    let digits := text.takeWhile isHex
    let next := groups ++ [hexNumber digits]
    if digits = [] ∨ 4 < digits.length then none
    else
      match text.dropWhile isHex with
      | [] => some (next, ellipsis)
      | '.' :: _ =>
        -- the four decimal fields take the place of two groups
        if (ellipsis = none ∧ groups.length ≠ 6) ∨ 6 < groups.length then none
        else (parseIPv4Fields text).map fun (high, low) => (groups ++ [high, low], ellipsis)
      | [':'] => none
      | ':' :: ':' :: rest =>
        if ellipsis.isSome then none
        else if rest = [] then some (next, some next.length)
        else parseGroups room next (some next.length) rest
      | ':' :: rest => parseGroups room next ellipsis rest
      | _ => none

/-- Put the zeros back that were left out; a run that is left out has at least one. -/
def expandGroups : List ℕ × Option ℕ → Option (List ℕ)
  | (groups, none) => if groups.length = 8 then some groups else none
  | (groups, some at') =>
    if groups.length < 8 then
      some (groups.take at' ++ List.replicate (8 - groups.length) 0 ++ groups.drop at')
    else none

def parseIPv6 (text : List Char) : Option Addr :=
  let body := text.takeWhile (· ≠ '%')
  let zone := (text.dropWhile (· ≠ '%')).drop 1
  if text ≠ body ∧ zone = [] then none
  else
    let groups := match body with
      | [':', ':'] => some ([], some 0)
      | ':' :: ':' :: rest => parseGroups 8 [] (some 0) rest
      | body => parseGroups 8 [] none body
    (groups.bind expandGroups).map fun groups =>
      .v6 (BitVec.ofNat 128 (groups.foldl (fun value group => value * 65536 + group) 0))
        (String.ofList zone)

/-- The first dot, colon or percent sign tells the forms apart. -/
def parseAddr (s : String) : Option Addr :=
  match s.toList.find? (fun c => c = '.' || c = ':' || c = '%') with
  | some '.' => (parseIPv4Fields s.toList).map fun (high, low) => .v4 (BitVec.ofNat 32 (high * 65536 + low))
  | some ':' => parseIPv6 s.toList
  | _ => none

/-! ## Prefixes -/

/-- The leading bits of an address. -/
inductive Prefix where
  | v4 (addr : BitVec 32) (bits : Fin 33)
  | v6 (addr : BitVec 128) (bits : Fin 129)

def Prefix.contains : Prefix → Addr → Bool
  | v4 addr bits, .v4 ip => (addr ^^^ ip) >>> (32 - bits.val) = 0
  | v6 addr bits, .v6 ip zone => zone = "" && (addr ^^^ ip) >>> (128 - bits.val) = 0
  | _, _ => false

/-- The leading bits of an address that has no zone. -/
def Prefix.ofAddr (bits : ℕ) : Addr → Option Prefix
  | .v4 addr => if h : bits < 33 then some (.v4 addr ⟨bits, h⟩) else none
  | .v6 addr zone => if h : bits < 129 then if zone = "" then some (.v6 addr ⟨bits, h⟩) else none else none

/-- An address, a slash and a number without sign or leading zeros. -/
def parsePrefix (s : String) : Option Prefix :=
  let chars := s.toList
  let bits := (chars.reverse.takeWhile (· ≠ '/')).reverse
  let addr := (chars.reverse.dropWhile (· ≠ '/')).drop 1 |>.reverse
  if '/' ∉ chars ∨ (1 < bits.length ∧ !(bits.head?.any fun c => '1' ≤ c && c ≤ '9')) then none
  else do
    let addr ← parseAddr (String.ofList addr)
    let bits ← GoText.atoi (String.ofList bits)
    if bits < 0 then none else Prefix.ofAddr bits.toNat addr

/-- The prefix of one address; a zone is dropped. -/
def Prefix.single : Addr → Prefix
  | .v4 addr => .v4 addr 32
  | .v6 addr _ => .v6 addr 128

example : parseAddr "203.0.113.7" = some (.v4 0xCB007107) := by decide

example : parseAddr "2001:db8::192.0.2.1" = parseAddr "2001:DB8:0::c000:201" := by decide

example : parseAddr "192.0.2.01" = none ∧ parseAddr "1::2::3" = none := by decide

end NetIP
