/-
  The client address that keys the rate limits (`locks-server/src/rate_limit.rs`,
  `client_ip`): with `n` trusted proxies it is the `n`-th entry from the right
  over all `X-Forwarded-For` lines.
-/
import PubkyLocks.Lib.Percent
import Mathlib.Data.List.DropRight

namespace PubkyLocks

/-! ## Addresses -/

inductive IpAddr where
  | v4 (bits : BitVec 32)
  | v6 (bits : BitVec 128)
deriving DecidableEq

/-- `IpAddr::to_canonical`: an IPv4-mapped address becomes its IPv4 address. -/
def IpAddr.toCanonical : IpAddr → IpAddr
  | v4 bits => .v4 bits
  | v6 bits => if bits.extractLsb' 32 96 = 0xffff then .v4 (bits.extractLsb' 0 32) else .v6 bits

structure SocketAddr where
  ip : IpAddr
  port : UInt16
deriving DecidableEq

/-- The parsers of the standard library. -/
structure AddressParsers where
  /-- `str::parse::<IpAddr>`. -/
  ipAddr : String → Option IpAddr
  /-- `str::parse::<SocketAddr>`. -/
  socketAddr : String → Option SocketAddr
  /-- `str::parse::<Ipv6Addr>`. -/
  ipv6Addr : String → Option (BitVec 128)

/-! ## Headers -/

def isAsciiWhitespace (b : UInt8) : Bool := b == 32 || b == 9 || b == 10 || b == 12 || b == 13

def trimAscii (bytes : List UInt8) : List UInt8 :=
  (bytes.dropWhile isAsciiWhitespace).rdropWhile isAsciiWhitespace

/-- `str::strip_prefix('[')` and `str::strip_suffix(']')`. -/
def unbracketed (text : String) : Option String :=
  match text.toList with
  | '[' :: rest => if rest.getLast? = some ']' then some (String.ofList rest.dropLast) else none
  | _ => none

def parseForwardedIp (A : AddressParsers) (entry : List UInt8) : Option IpAddr := do
  let entry ← Percent.text? (trimAscii entry)
  let ip ← match A.ipAddr entry with
    | some ip => some ip
    | none => match A.socketAddr entry with
      | some address => some address.ip
      | none => do
        let bracketed ← unbracketed entry
        let bits ← A.ipv6Addr bracketed
        some (.v6 bits)
  some ip.toCanonical

/-- An entry with a byte that is not white space. -/
def isPresent (entry : List UInt8) : Bool := !(trimAscii entry).isEmpty

/-- The entries of one line, `split(|byte| *byte == b',')`. -/
def lineEntries (line : List UInt8) : List (List UInt8) := line.splitOn 44

/-- `client_ip`, on the values of the `X-Forwarded-For` header. -/
def clientIp (A : AddressParsers) (peer : SocketAddr) (lines : List (List UInt8))
    (trustedProxyHops : ℕ) : IpAddr :=
  match trustedProxyHops with
  | 0 => peer.ip
  | index + 1 =>
    let entries := (lines.reverse.flatMap fun line => (lineEntries line).reverse).filter isPresent
    (entries[index]?.bind (parseForwardedIp A)).getD peer.ip

/-! ## The entries from the left -/

def forwardedEntries (lines : List (List UInt8)) : List (List UInt8) :=
  (lines.flatMap lineEntries).filter isPresent

theorem reversed_entries (lines : List (List UInt8)) :
    (lines.reverse.flatMap fun line => (lineEntries line).reverse).filter isPresent =
      (forwardedEntries lines).reverse := by
  rw [forwardedEntries, ← List.filter_reverse, List.reverse_flatMap]
  rfl

theorem nth_reversed {α : Type} (l : List α) (i : ℕ) :
    l.reverse[i]? = (l.rtake (i + 1)).reverse[i]? := by
  rw [List.rtake_eq_reverse_take_reverse, List.reverse_reverse,
    List.getElem?_take_of_lt (Nat.lt_succ_self i)]

/-- **The address cannot be forged.**  Lines with the same last `n` entries that
    are not blank give the same address, whatever else they hold and however the
    entries are split into lines; with fewer entries, or if the `n`-th from the
    right is no address, it is that of the peer. -/
theorem client_ip_trusted (A : AddressParsers) (peer : SocketAddr) (n : ℕ) (hn : 1 ≤ n) :
    (∀ lines lines', (forwardedEntries lines).rtake n = (forwardedEntries lines').rtake n →
      clientIp A peer lines n = clientIp A peer lines' n) ∧
    (∀ lines, (forwardedEntries lines).length < n → clientIp A peer lines n = peer.ip) ∧
    ∀ lines entry, (forwardedEntries lines)[(forwardedEntries lines).length - n]? = some entry →
      n ≤ (forwardedEntries lines).length →
      clientIp A peer lines n = (parseForwardedIp A entry).getD peer.ip := by
  obtain ⟨i, rfl⟩ : ∃ i, n = i + 1 := ⟨n - 1, by omega⟩
  refine ⟨fun lines lines' h => ?_, fun lines h => ?_, fun lines entry hentry hlen => ?_⟩
  · simp only [clientIp, reversed_entries]
    rw [nth_reversed, h, ← nth_reversed]
  · simp only [clientIp, reversed_entries]
    rw [List.getElem?_eq_none (by rw [List.length_reverse]; omega)]
    rfl
  · simp only [clientIp, reversed_entries]
    have hindex : (forwardedEntries lines).length - 1 - i =
        (forwardedEntries lines).length - (i + 1) := by omega
    rw [List.getElem?_reverse (by omega), hindex, hentry]
    rfl

/-- With one proxy, a reader at `203.0.113.7` who sends `::1` is seen as `203.0.113.7`,
    whether the proxy extends the line or adds one.  With two, its entry alone gives
    the peer. -/
theorem forwarded_client_trusted :
    let A : AddressParsers := ⟨fun text =>
      if text = "203.0.113.7" then some (.v4 0xcb007107) else if text = "::1" then some (.v6 1)
      else none, fun _ => none, fun _ => none⟩
    let peer : SocketAddr := ⟨.v4 0x0a000001, 443⟩
    let line (text : String) := Percent.bytes text.toList
    clientIp A peer [line "::1,203.0.113.7"] 1 =
        clientIp A peer [line "::1", line " ,203.0.113.7"] 1 ∧
      clientIp A peer [line "::1", line "203.0.113.7"] 1 = .v4 0xcb007107 ∧
      clientIp A peer [line "203.0.113.7", line " ,"] 2 = .v4 0x0a000001 := by
  intro A peer line
  exact ⟨(client_ip_trusted A peer 1 le_rfl).1 _ _ (by decide +kernel),
    ((client_ip_trusted A peer 1 le_rfl).2.2 [line "::1", line "203.0.113.7"]
      (line "203.0.113.7") (by decide +kernel) (by decide +kernel)).trans (by decide +kernel),
    (client_ip_trusted A peer 2 (by decide)).2.1 _ (by decide +kernel)⟩

end PubkyLocks
