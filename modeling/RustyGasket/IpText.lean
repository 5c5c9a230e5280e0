import RustyGasket.Http
import RustyGasket.Reader

/-!
# IP addresses as text

`str::parse` for `IpAddr` and `SocketAddr` and the `Display` of an `IpAddr`, as
the standard library does them. What parses is plain: hexadecimal digits, dots,
colons, brackets and `%`, so it holds no comma, no blank and nothing outside
visible ASCII.
-/

namespace RustyGasket

open Reading

inductive IpAddr
  | v4 (octets : List Nat)
  | v6 (segments : List Nat)
  deriving DecidableEq, Repr

/-- `char::to_digit`. -/
def toDigit (radix : Nat) (c : Char) : Option Nat :=
  let value :=
    if '0' ≤ c ∧ c ≤ '9' then some (c.toNat - '0'.toNat)
    else if 'a' ≤ c ∧ c ≤ 'z' then some (c.toNat - 'a'.toNat + 10)
    else if 'A' ≤ c ∧ c ≤ 'Z' then some (c.toNat - 'A'.toNat + 10)
    else none
  value.filter (· < radix)

def readGivenChar (target : Char) : Reader Char Unit := do
  let c ← token
  if c = target then return () else failure

/-- `bound` is one more than the maximum of the number's type. -/
def readNumber (radix : Nat) (maxDigits : Option Nat) (bound : Nat) (allowZeroPrefix : Bool) :
    Reader Char Nat := do
  let digits ← spanSome (toDigit radix)
  let value := digits.foldl (fun value digit => value * radix + digit) 0
  if digits = [] then failure
  else if maxDigits.any (· < digits.length) then failure
  else if !allowZeroPrefix && digits.head? = some 0 && 1 < digits.length then failure
  else if bound ≤ value then failure
  else return value

def readSeparator {α : Type} (sep : Char) (index : Nat) (inner : Reader Char α) :
    Reader Char α :=
  if index > 0 then do
    readGivenChar sep
    inner
  else inner

def readOctet (index : Nat) : Reader Char Nat :=
  readSeparator '.' index (readNumber 10 (some 3) 256 false)

def readIpv4Addr : Reader Char (List Nat) := do
  let a ← readOctet 0
  let b ← readOctet 1
  let c ← readOctet 2
  let d ← readOctet 3
  return [a, b, c, d]

/-- An embedded IPv4 address as two groups. -/
def readEmbedded (index : Nat) : Reader Char (List Nat) := do
  let octets ← readSeparator ':' index readIpv4Addr
  match octets with
  | [a, b, c, d] => return [a * 256 + b, c * 256 + d]
  | _ => failure

/-- `read_groups` with `left` of its `limit` groups still to read: the groups, and
whether the last two came from an IPv4 address. -/
def readGroups (limit : Nat) : Nat → Reader Char (List Nat × Bool)
  | 0 => return ([], false)
  | left + 1 =>
    let index := limit - (left + 1)
    (if index < limit - 1 then do
      let groups ← readEmbedded index
      return (groups, true)
    else failure) <|>
    (do
      let group ← readSeparator ':' index (readNumber 16 (some 4) 65536 true)
      let (groups, ipv4) ← readGroups limit left
      return (group :: groups, ipv4)) <|>
    return ([], false)

def readIpv6Addr : Reader Char (List Nat) := do
  let (head, headIpv4) ← readGroups 8 8
  if head.length = 8 then return head
  else if headIpv4 then failure
  else do
    readGivenChar ':'
    readGivenChar ':'
    let limit := 8 - (head.length + 1)
    let (tail, _) ← readGroups limit limit
    return head ++ List.replicate (8 - head.length - tail.length) 0 ++ tail

def readIpAddr : Reader Char IpAddr :=
  (do let octets ← readIpv4Addr; return .v4 octets) <|>
  (do let segments ← readIpv6Addr; return .v6 segments)

def readPort : Reader Char Nat := do
  readGivenChar ':'
  readNumber 10 none 65536 true

def readScopeId : Reader Char Nat := do
  readGivenChar '%'
  readNumber 10 none UInt32.size true

/-- A socket address, of which the callers keep the IP. -/
def readSocketAddrIp : Reader Char IpAddr :=
  (do
    let octets ← readIpv4Addr
    let _port ← readPort
    return .v4 octets) <|>
  (do
    readGivenChar '['
    let segments ← readIpv6Addr
    let _scopeId ← readScopeId <|> return 0
    readGivenChar ']'
    let _port ← readPort
    return .v6 segments)

/-- `parse::<IpAddr>()`, then `parse::<SocketAddr>()`. -/
def parseAddress (text : List Char) : Option IpAddr :=
  (Reading.all readIpAddr text).orElse fun _ => Reading.all readSocketAddrIp text

def joinWith (sep : Char) : List (List Char) → List Char
  | [] => []
  | [part] => part
  | part :: rest => part ++ sep :: joinWith sep rest

/-- The longest run of zero groups, the first of several, as start and length. -/
def longestZeroes (segments : List Nat) : Nat × Nat :=
  (segments.zipIdx.foldl (fun (longest, current) (segment, i) =>
    if segment = 0 then
      let current : Nat × Nat := if current.2 = 0 then (i, 1) else (current.1, current.2 + 1)
      (if current.2 > longest.2 then current else longest, current)
    else (longest, (0, 0))) (((0, 0), (0, 0)) : (Nat × Nat) × (Nat × Nat))).1

def displayIpv4 (octets : List Nat) : List Char := joinWith '.' (octets.map (Nat.toDigits 10))

def displaySegments (segments : List Nat) : List Char :=
  joinWith ':' (segments.map (Nat.toDigits 16))

def displayIpv6 (segments : List Nat) : List Char :=
  match segments with
  | [0, 0, 0, 0, 0, 0xffff, hi, lo] =>
    [':', ':', 'f', 'f', 'f', 'f', ':'] ++ displayIpv4 [hi / 256, hi % 256, lo / 256, lo % 256]
  | segments =>
    let (start, length) := longestZeroes segments
    if length > 1 then
      displaySegments (segments.take start) ++ [':', ':'] ++
        displaySegments (segments.drop (start + length))
    else displaySegments segments

/-- `IpAddr::to_string`. -/
def IpAddr.display : IpAddr → List Char
  | v4 octets => displayIpv4 octets
  | v6 segments => displayIpv6 segments

/-! ## What parses is plain -/

/-- The characters an address or a socket address is written with. -/
def isAddressChar (c : Char) : Bool :=
  ('0' ≤ c && c ≤ '9') || ('a' ≤ c && c ≤ 'z') || ('A' ≤ c && c ≤ 'Z') ||
    c == '.' || c == ':' || c == '[' || c == ']' || c == '%'

abbrev Plain {α : Type} (r : Reader Char α) : Prop := Eats (fun c => isAddressChar c = true) r

theorem isAddressChar_of_toDigit {radix : Nat} {c : Char} {d : Nat}
    (h : toDigit radix c = some d) : isAddressChar c = true := by
  simp only [toDigit] at h
  have := (Option.filter_eq_some_iff.mp h).1
  simp only [isAddressChar]
  grind

theorem readGivenChar_plain {target : Char} (h : isAddressChar target = true) :
    Plain (readGivenChar target) := by
  refine Eats.token (fun t _ => Eats.ite (fun _ => Eats.pure _) fun _ => Eats.failure) ?_
  intro t ht
  rw [if_neg]
  rintro rfl
  exact ht h

theorem readNumber_plain (radix : Nat) (maxDigits : Option Nat) (bound : Nat) (zero : Bool) :
    Plain (readNumber radix maxDigits bound zero) := by
  refine Eats.bind (Eats.spanSome fun _ _ => isAddressChar_of_toDigit) fun digits => ?_
  refine Eats.ite (fun _ => Eats.failure) fun _ => ?_
  refine Eats.ite (fun _ => Eats.failure) fun _ => ?_
  refine Eats.ite (fun _ => Eats.failure) fun _ => ?_
  exact Eats.ite (fun _ => Eats.failure) fun _ => Eats.pure _

theorem readSeparator_plain {α : Type} {sep : Char} (h : isAddressChar sep = true) (index : Nat)
    {inner : Reader Char α} (hi : Plain inner) : Plain (readSeparator sep index inner) :=
  Eats.ite (fun _ => Eats.bind (readGivenChar_plain h) fun _ => hi) fun _ => hi

theorem readOctet_plain (index : Nat) : Plain (readOctet index) :=
  readSeparator_plain (by decide) index (readNumber_plain _ _ _ _)

theorem readIpv4Addr_plain : Plain readIpv4Addr := by
  refine Eats.bind (readOctet_plain 0) fun _ => ?_
  refine Eats.bind (readOctet_plain 1) fun _ => ?_
  refine Eats.bind (readOctet_plain 2) fun _ => ?_
  exact Eats.bind (readOctet_plain 3) fun _ => Eats.pure _

theorem readEmbedded_plain (index : Nat) : Plain (readEmbedded index) := by
  refine Eats.bind (readSeparator_plain (by decide) index readIpv4Addr_plain) fun octets => ?_
  split
  · exact Eats.pure _
  · exact Eats.failure

theorem readGroups_plain (limit left : Nat) : Plain (readGroups limit left) := by
  induction left with
  | zero => exact Eats.pure _
  | succ left ih =>
    refine Eats.orElse (Eats.ite (fun _ => ?_) fun _ => Eats.failure) (Eats.orElse ?_ (Eats.pure _))
    · exact Eats.bind (readEmbedded_plain _) fun _ => Eats.pure _
    · refine Eats.bind (readSeparator_plain (by decide) _ (readNumber_plain _ _ _ _)) fun _ => ?_
      exact Eats.bind ih fun _ => Eats.pure _

theorem readIpv6Addr_plain : Plain readIpv6Addr := by
  refine Eats.bind (readGroups_plain 8 8) fun head => ?_
  refine Eats.ite (fun _ => Eats.pure _) fun _ => Eats.ite (fun _ => Eats.failure) fun _ => ?_
  refine Eats.bind (readGivenChar_plain (by decide)) fun _ => ?_
  refine Eats.bind (readGivenChar_plain (by decide)) fun _ => ?_
  exact Eats.bind (readGroups_plain _ _) fun _ => Eats.pure _

theorem readIpAddr_plain : Plain readIpAddr :=
  Eats.orElse (Eats.bind readIpv4Addr_plain fun _ => Eats.pure _)
    (Eats.bind readIpv6Addr_plain fun _ => Eats.pure _)

theorem readPort_plain : Plain readPort :=
  Eats.bind (readGivenChar_plain (by decide)) fun _ => readNumber_plain _ _ _ _

theorem readSocketAddrIp_plain : Plain readSocketAddrIp := by
  refine Eats.orElse ?_ ?_
  · refine Eats.bind readIpv4Addr_plain fun _ => ?_
    exact Eats.bind readPort_plain fun _ => Eats.pure _
  · have scope : Plain (readScopeId <|> return 0) :=
      Eats.orElse (Eats.bind (readGivenChar_plain (by decide)) fun _ => readNumber_plain _ _ _ _)
        (Eats.pure _)
    refine Eats.bind (readGivenChar_plain (by decide)) fun _ => ?_
    refine Eats.bind readIpv6Addr_plain fun _ => ?_
    refine Eats.bind scope fun _ => ?_
    refine Eats.bind (readGivenChar_plain (by decide)) fun _ => ?_
    exact Eats.bind readPort_plain fun _ => Eats.pure _

/-- Every character of a text that parses is an address character. -/
theorem parseAddress_plain {text : List Char} {ip : IpAddr} (h : parseAddress text = some ip) :
    ∀ c ∈ text, isAddressChar c = true := by
  rw [parseAddress] at h
  cases hip : Reading.all readIpAddr text with
  | some _ => exact readIpAddr_plain.all hip
  | none =>
    rw [hip] at h
    exact readSocketAddrIp_plain.all h

end RustyGasket
