import ControlPlane.Text

/-!
# The address of a client

The limiter and the guard know a client by the text that `clientIP` makes of its remote
address: the canonical text of the address if the remote address is an address with a port,
as `netip.ParseAddrPort` reads it, and otherwise what stands before the first colon. The text
is empty for the remote addresses that are empty or begin with a colon, and for no others.
-/

namespace ControlPlane

open Text

/-- `netip.Addr`: the fields of the address and, for the long addresses, the zone. -/
inductive Addr
  | v4 (a b c d : UInt8)
  | v6 (groups : Fin 8 → UInt16) (zone : List Char)

namespace Addr

/-- A decimal field of at most 255, without leading zeros. -/
def octet (l : List Char) : Option UInt8 :=
  (digits l).bind fun n =>
    if (l.head? = some '0' ∧ 1 < l.length) ∨ 255 < n then none else some (UInt8.ofNat n)

/-- `parseIPv4Fields`: exactly four fields. -/
def parseIPv4Fields (l : List Char) : Option (UInt8 × UInt8 × UInt8 × UInt8) :=
  match l.splitOn '.' with
  | [a, b, c, d] => do return (← octet a, ← octet b, ← octet c, ← octet d)
  | _ => none

def parseIPv4 (l : List Char) : Option Addr :=
  (parseIPv4Fields l).map fun (a, b, c, d) => v4 a b c d

def isHexDigit (c : Char) : Bool := c.isDigit || 'a' ≤ c && c ≤ 'f' || 'A' ≤ c && c ≤ 'F'

def hexValue (c : Char) : ℕ :=
  if c.isDigit then c.toNat - '0'.toNat
  else if 'a' ≤ c then c.toNat - 'a'.toNat + 10
  else c.toNat - 'A'.toNat + 10

def hexadecimal (ds : List Char) : UInt16 :=
  UInt16.ofNat (ds.foldl (fun n c => 16 * n + hexValue c) 0)

/-- What the loop of `parseIPv6` has read: the groups, how many of them stand before the
ellipsis, and the rest of the text. -/
structure Groups where
  ellipsis : Option ℕ
  groups : List UInt16
  rest : List Char

/-- The loop of `parseIPv6`, with the number of groups for which there is room. -/
def parseGroups : ℕ → Groups → Option Groups
  | 0, st => some st
  | room + 1, st =>
    let ds := st.rest.takeWhile isHexDigit
    let groups := st.groups ++ [hexadecimal ds]
    if ds = [] ∨ 4 < ds.length then none
    else
      match st.rest.dropWhile isHexDigit with
      | [] => some { st with groups, rest := [] }
      | '.' :: _ =>
        -- the last two groups may be written as a short address
        if (st.ellipsis = none ∧ st.groups.length ≠ 6) ∨ room = 0 then none
        else (parseIPv4Fields st.rest).map fun (a, b, c, d) =>
          { st with
            groups := st.groups ++ [a.toUInt16 * 256 + b.toUInt16, c.toUInt16 * 256 + d.toUInt16]
            rest := [] }
      | [':'] => none
      | ':' :: ':' :: rest =>
        if st.ellipsis.isSome then none
        else if rest = [] then some ⟨some groups.length, groups, []⟩
        else parseGroups room ⟨some groups.length, groups, rest⟩
      | ':' :: rest => parseGroups room { st with groups, rest }
      | _ => none

/-- The ellipsis stands for the groups that are missing, at least one. -/
def Groups.expand (st : Groups) : Option (List UInt16) :=
  if st.rest ≠ [] then none
  else
    match st.ellipsis with
    | none => if st.groups.length < 8 then none else some st.groups
    | some k =>
      if st.groups.length < 8 then
        some (st.groups.take k ++ List.replicate (8 - st.groups.length) 0 ++ st.groups.drop k)
      else none

def ofGroups (groups : List UInt16) (zone : List Char) : Addr :=
  v6 (fun i => groups.getD i 0) zone

/-- The part of `parseIPv6` after the zone is split off. -/
def parseZoned (zone : List Char) : List Char → Option Addr
  | [':', ':'] => some (ofGroups [] zone)
  | ':' :: ':' :: rest =>
    ((parseGroups 8 ⟨some 0, [], rest⟩).bind Groups.expand).map (ofGroups · zone)
  | l => ((parseGroups 8 ⟨none, [], l⟩).bind Groups.expand).map (ofGroups · zone)

def parseIPv6 (l : List Char) : Option Addr :=
  match cut '%' l with
  | none => parseZoned [] l
  | some (l, zone) => if zone = [] then none else parseZoned zone l

/-- `netip.ParseAddr`: the first dot, colon or percent sign decides. -/
def parseAddr (l : List Char) : Option Addr :=
  match l.find? fun c => c = '.' ∨ c = ':' ∨ c = '%' with
  | some '.' => parseIPv4 l
  | some ':' => parseIPv6 l
  | _ => none

def is6 : Addr → Bool
  | v4 .. => false
  | v6 .. => true

/-- `strconv.ParseUint(port, 10, 16)`. -/
def parsePort (l : List Char) : Option ℕ :=
  (digits l).bind fun n => if n < 2 ^ 16 then some n else none

/-- `splitAddrPort`: the address without its brackets, the port after the last colon, and
whether there were brackets. -/
def splitAddrPort (l : List Char) : Option (List Char × List Char × Bool) :=
  (cut ':' l.reverse).bind fun (port, ip) =>
    if ip = [] ∨ port = [] then none
    else
      match ip.reverse with
      | '[' :: rest =>
        if rest.getLast? = some ']' then some (rest.dropLast, port.reverse, true) else none
      | ip => some (ip, port.reverse, false)

/-- `netip.ParseAddrPort`: the long addresses, and only these, stand between brackets. -/
def parseAddrPort (l : List Char) : Option (Addr × ℕ) := do
  let (ip, port, bracketed) ← splitAddrPort l
  let port ← parsePort port
  let addr ← parseAddr ip
  if addr.is6 = bracketed then some (addr, port) else none

def string4 (a b c d : UInt8) : List Char :=
  let text (x : UInt8) : List Char := Nat.toDigits 10 x.toNat
  text a ++ '.' :: text b ++ '.' :: text c ++ '.' :: text d

/-- The first longest run of at least two zero groups: where it starts and its length, which
is zero if there is none. -/
def zeroRun (groups : List UInt16) : ℕ × ℕ :=
  (List.range 8).foldl (fun best i =>
    let len := ((groups.drop i).takeWhile (· = 0)).length
    if 2 ≤ len ∧ best.2 < len then (i, len) else best) (0, 0)

/-- Groups in hexadecimal, separated by colons. -/
def appendHex (groups : List UInt16) : List Char :=
  List.intercalate [':'] (groups.map fun g => Nat.toDigits 16 g.toNat)

def string6 (groups : List UInt16) : List Char :=
  let (start, len) := zeroRun groups
  if len = 0 then appendHex groups
  else appendHex (groups.take start) ++ ':' :: ':' :: appendHex (groups.drop (start + len))

/-- A short address written as a long one. -/
def is4In6 (groups : List UInt16) : Bool :=
  (groups.take 5).all (· = 0) && groups.getD 5 0 = 0xffff

def string4In6 (groups : List UInt16) : List Char :=
  let byte (i : ℕ) (high : Bool) : UInt8 :=
    let g := groups.getD i 0
    if high then (g / 256).toUInt8 else g.toUInt8
  "::ffff:".toList ++ string4 (byte 6 true) (byte 6 false) (byte 7 true) (byte 7 false)

/-- `Addr.String`. -/
def string : Addr → List Char
  | v4 a b c d => string4 a b c d
  | v6 groups zone =>
    let gs := List.ofFn groups
    (if is4In6 gs then string4In6 gs else string6 gs) ++ if zone = [] then [] else '%' :: zone

example : (parseAddrPort "[2001:DB8:0:0:1::7%eth0]:443".toList).map (fun r => (r.1.string, r.2)) =
    some ("2001:db8::1:0:0:7%eth0".toList, 443) := by decide +kernel

example : (parseAddrPort "[::ffff:10.0.0.7]:80".toList).map (·.1.string) =
    some "::ffff:10.0.0.7".toList := by decide +kernel

example : parseAddrPort "10.0.0.07:80".toList = none := by decide +kernel

theorem mem_string4 (a b c d : UInt8) : '.' ∈ string4 a b c d := by simp [string4]

/-- The eight groups, or those around the longest run of zeros, are separated by colons. -/
theorem string6_ne_nil {groups : List UInt16} (hlen : groups.length = 8) : string6 groups ≠ [] := by
  unfold string6
  obtain ⟨start, len⟩ := zeroRun groups
  obtain ⟨g, g', rest, rfl⟩ : ∃ g g' rest, groups = g :: g' :: rest := by
    cases groups with
    | nil => cases hlen
    | cons g groups =>
      cases groups with
      | nil => cases hlen
      | cons g' rest => exact ⟨g, g', rest, rfl⟩
  dsimp only
  split_ifs
  · simp [appendHex, List.intercalate]
  · simp

theorem string_ne_nil (addr : Addr) : addr.string ≠ [] := by
  have htext : ∀ gs : List UInt16, gs.length = 8 →
      (if is4In6 gs then string4In6 gs else string6 gs) ≠ [] := by
    intro gs hlen
    by_cases h4in6 : is4In6 gs = true
    · rw [if_pos h4in6]
      exact List.append_ne_nil_of_left_ne_nil (by decide) _
    · rw [if_neg h4in6]
      exact string6_ne_nil hlen
  cases addr with
  | v4 a b c d => exact List.ne_nil_of_mem (mem_string4 a b c d)
  | v6 groups zone =>
    exact List.append_ne_nil_of_left_ne_nil (htext (List.ofFn groups) List.length_ofFn) _

/-- A text that begins with a colon is read as a long address. -/
theorem is6_of_parseAddr {l : List Char} {addr : Addr} (h : parseAddr (':' :: l) = some addr) :
    addr.is6 = true := by
  have hzoned : ∀ (zone l : List Char), parseZoned zone l = some addr → addr.is6 = true := by
    intro zone l hparsed
    unfold parseZoned at hparsed
    split at hparsed
    · cases hparsed
      rfl
    all_goals
      obtain ⟨groups, -, rfl⟩ := Option.map_eq_some_iff.mp hparsed
      rfl
  simp only [parseAddr, List.find?_cons, decide_true, or_true, true_or] at h
  unfold parseIPv6 at h
  split at h
  · exact hzoned _ _ h
  · split_ifs at h
    exact hzoned _ _ h

/-- The address of such a text begins with the colon and has no brackets. -/
theorem splitAddrPort_colon {l ip port : List Char} {bracketed : Bool}
    (h : splitAddrPort (':' :: l) = some (ip, port, bracketed)) :
    (∃ rest, ip = ':' :: rest) ∧ bracketed = false := by
  obtain ⟨⟨port', ip'⟩, hcut, hsplit⟩ := Option.bind_eq_some_iff.mp h
  obtain ⟨hreverse, -⟩ := cut_eq_some.mp hcut
  have happend : ':' :: l = ip'.reverse ++ ':' :: port'.reverse := by
    rw [← List.reverse_reverse (':' :: l), hreverse]
    simp
  dsimp only at hsplit
  split_ifs at hsplit with hempty
  cases hip : ip'.reverse with
  | nil => exact absurd (Or.inl (List.reverse_eq_nil_iff.mp hip)) hempty
  | cons c rest =>
    rw [hip, List.cons_append] at happend
    cases List.head_eq_of_cons_eq happend
    rw [hip] at hsplit
    cases hsplit
    exact ⟨⟨rest, rfl⟩, rfl⟩

/-- It is no address with a port: it would be a long one without brackets. -/
theorem parseAddrPort_colon (l : List Char) : parseAddrPort (':' :: l) = none := by
  rw [Option.eq_none_iff_forall_ne_some]
  intro r h
  obtain ⟨⟨ip, port, bracketed⟩, hsplit, h⟩ := Option.bind_eq_some_iff.mp h
  obtain ⟨⟨rest, rfl⟩, rfl⟩ := splitAddrPort_colon hsplit
  obtain ⟨n, -, h⟩ := Option.bind_eq_some_iff.mp h
  obtain ⟨addr, haddr, h⟩ := Option.bind_eq_some_iff.mp h
  rw [is6_of_parseAddr haddr] at h
  cases h

end Addr

/-- `clientIP`. -/
def clientIP (remoteAddr : String) : String :=
  match Addr.parseAddrPort remoteAddr.toList with
  | some (addr, _) => String.ofList addr.string
  | none =>
    match remoteAddr.toList.splitOn ':' with
    | part :: _ => String.ofList part
    | [] => remoteAddr

/-- The clients without an address: their remote address is empty or begins with a colon. -/
theorem clientIP_eq_empty {remoteAddr : String} :
    clientIP remoteAddr = "" ↔ remoteAddr = "" ∨ ∃ rest, remoteAddr.toList = ':' :: rest := by
  have hempty : ∀ l : List Char, String.ofList l = "" ↔ l = [] := by
    intro l
    rw [← String.ofList_nil, String.ofList_inj]
  have hremote : remoteAddr = "" ↔ remoteAddr.toList = [] := by
    rw [← hempty, String.ofList_toList]
  unfold clientIP
  rw [hremote]
  cases hl : remoteAddr.toList with
  | nil => exact iff_of_true rfl (Or.inl rfl)
  | cons c rest =>
    by_cases hc : c = ':'
    · subst hc
      rw [Addr.parseAddrPort_colon, ← List.nil_append (':' :: rest),
        splitOn_append_cons rest (by simp)]
      exact iff_of_true rfl (Or.inr ⟨rest, rfl⟩)
    · refine iff_of_false ?_ (by simp [hc])
      cases hparsed : Addr.parseAddrPort (c :: rest) with
      | some r => simpa [hempty] using Addr.string_ne_nil r.1
      | none =>
        obtain ⟨part, parts, hsplit⟩ := splitOn_cons_of_ne rest hc
        rw [hsplit]
        simp [hempty]

/-- A remote address without a colon has no port and is taken as it is. -/
theorem clientIP_of_notMem {remoteAddr : String} (h : ':' ∉ remoteAddr.toList) :
    clientIP remoteAddr = remoteAddr := by
  have hcut : cut ':' remoteAddr.toList.reverse = none := cut_of_notMem (by simpa using h)
  have hparse : Addr.parseAddrPort remoteAddr.toList = none := by
    unfold Addr.parseAddrPort Addr.splitAddrPort
    rw [hcut]
    rfl
  unfold clientIP
  rw [hparse, splitOn_of_notMem h]
  exact String.ofList_toList

end ControlPlane
