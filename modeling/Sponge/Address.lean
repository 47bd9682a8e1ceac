import Mathlib.Data.List.TakeWhile
import Sponge.NetParser

/-!
# Socket addresses

`Address` of `address.hh` and `address.cc`. An address is a `sockaddr_storage`, of
which the first `size` bytes were copied from somewhere and the others are zero; the
numbers in it are in network byte order, but are loaded and stored in that of the
host, which is an argument. The resolver of the C library is a parameter.

For addresses that are made from a dotted quad and a port, all ways back lead to
where they came from (`Resolver.Numeric` is what is assumed of the resolver).
-/

namespace Sponge

/-! ## Integers in memory -/

/-- The byte order of a host. -/
inductive Endian where
  | little
  | big
  deriving DecidableEq, Repr

namespace Endian

open NetUnparser (encode encode_bigEndian bigEndian_encode length_encode)

/-- The bytes of an object in the order of their significance, most significant first. -/
def order (host : Endian) (bytes : Bytes) : Bytes :=
  match host with
  | .little => bytes.reverse
  | .big => bytes

def store (host : Endian) {w : Width} (val : BitVec w.bits) : Bytes := host.order (encode val)

def load (host : Endian) {w : Width} (bytes : Bytes) : BitVec w.bits :=
  BitVec.ofNat w.bits (bigEndian (host.order bytes))

/-- An integer with its bytes in reverse order. -/
def byteSwap {w : Width} (val : BitVec w.bits) : BitVec w.bits :=
  BitVec.ofNat w.bits (bigEndian (encode val).reverse)

/-- The functions `be16toh` and `be32toh`, and their inverses. -/
def ofNetwork (host : Endian) {w : Width} (val : BitVec w.bits) : BitVec w.bits :=
  match host with
  | .little => byteSwap val
  | .big => val

variable {host : Endian} {w : Width} {bytes : Bytes}

@[simp] theorem order_order (host : Endian) (bytes : Bytes) :
    host.order (host.order bytes) = bytes := by
  cases host <;> simp [order]

@[simp] theorem length_order (host : Endian) (bytes : Bytes) :
    (host.order bytes).length = bytes.length := by
  cases host <;> simp [order]

@[simp] theorem length_store (host : Endian) (val : BitVec w.bits) :
    (host.store val).length = w.len := by
  simp [store]

@[simp] theorem load_store (host : Endian) (val : BitVec w.bits) :
    host.load (host.store val) = val := by
  unfold load store
  rw [order_order, bigEndian_encode, BitVec.ofNat_toNat, BitVec.setWidth_eq]

/-- An integer that is stored in network byte order is read as such on every host. -/
theorem ofNetwork_load (host : Endian) (length : bytes.length = w.len) :
    host.ofNetwork (host.load bytes : BitVec w.bits) = BitVec.ofNat w.bits (bigEndian bytes) := by
  cases host with
  | big => rfl
  | little =>
      have swapped : encode (BitVec.ofNat w.bits (bigEndian bytes.reverse)) = bytes.reverse :=
        encode_bigEndian (by rwa [List.length_reverse])
      simp only [ofNetwork, byteSwap, load, order, swapped, List.reverse_reverse]

theorem store_ofNetwork (host : Endian) (val : BitVec w.bits) :
    host.store (host.ofNetwork val) = encode val := by
  cases host with
  | big => rfl
  | little =>
      have swapped : encode (BitVec.ofNat w.bits (bigEndian (encode val).reverse)) =
          (encode val).reverse := encode_bigEndian (by rw [List.length_reverse, length_encode])
      simp only [ofNetwork, byteSwap, store, order, swapped, List.reverse_reverse]

end Endian

/-! ## Addresses -/

/-- The size of a `sockaddr_storage`. -/
abbrev storageSize : Nat := 128

/-- The size of a `sockaddr_in`. -/
abbrev sockaddrInSize : Nat := 16

/-- The type `uint16_t`. -/
abbrev U16 := BitVec Width.u16.bits

/-- The type `uint32_t`. -/
abbrev U32 := BitVec Width.u32.bits

abbrev addressFamilyInet : U16 := 2

/-- An address: the storage starts as zeros, and `size` bytes are copied to its front. -/
structure Address where
  size : Nat
  storage : Bytes
  length : storage.length = storageSize
  fits : size ≤ storageSize
  unused : storage.drop size = List.replicate (storageSize - size) 0
  deriving DecidableEq

namespace Address

/-- The first `n` bytes of a region of memory that has at least so many. -/
def memcpy (addr : Bytes) (n : Nat) : Bytes := addr.takeD n 0

/-- The constructor from a raw address. -/
def ofSockaddr (addr : Bytes) (size : Nat) : Except Exn Address :=
  if large : size > storageSize then
    .error (.runtimeError "invalid sockaddr size")
  else
    .ok {
      size := size
      storage := memcpy addr size ++ List.replicate (storageSize - size) 0
      length := by
        rw [List.length_append, List.length_replicate, memcpy, List.takeD_length]
        omega
      fits := Nat.le_of_not_gt large
      unused := List.drop_left' (by rw [memcpy, List.takeD_length]) }

/-- The operator `==`. -/
def equals (a b : Address) : Bool :=
  if a.size ≠ b.size then false else a.storage.take a.size == b.storage.take a.size

/-- The bytes that an address was made from. -/
def bytes (a : Address) : Bytes := a.storage.take a.size

theorem length_bytes (a : Address) : a.bytes.length = a.size := by
  rw [bytes, List.length_take_of_le (by rw [a.length]; exact a.fits)]

theorem storage_eq (a : Address) :
    a.storage = a.bytes ++ List.replicate (storageSize - a.size) 0 := by
  rw [bytes, ← a.unused, List.take_append_drop]

theorem eq_of_bytes {a b : Address} (same : a.bytes = b.bytes) : a = b := by
  have size : a.size = b.size := by rw [← a.length_bytes, ← b.length_bytes, same]
  have storage : a.storage = b.storage := by rw [a.storage_eq, b.storage_eq, same, size]
  cases a
  cases b
  cases size
  cases storage
  rfl

/-- Two addresses are equal for `==` exactly if they are the same: what lies behind the
bytes that are compared is zero in both. -/
theorem equals_iff {a b : Address} : a.equals b = true ↔ a = b := by
  unfold equals
  split
  · next sizes =>
    refine ⟨nofun, ?_⟩
    rintro rfl
    exact absurd rfl sizes
  · next sizes =>
    rw [beq_iff_eq]
    refine ⟨fun same => eq_of_bytes ?_, fun same => by rw [same]⟩
    rw [bytes, bytes, ← not_not.mp sizes]
    exact same

theorem ofSockaddr_bytes {addr : Bytes} {size : Nat} (fits : size ≤ storageSize)
    (available : size ≤ addr.length) :
    ∃ a, ofSockaddr addr size = .ok a ∧ a.bytes = addr.take size ∧ a.size = size := by
  refine ⟨_, dif_neg (Nat.not_lt.mpr fits), ?_, rfl⟩
  show (memcpy addr size ++ List.replicate (storageSize - size) 0).take size = _
  rw [memcpy, List.takeD_eq_take _ available]
  exact List.take_left' (List.length_take_of_le available)

/-! ## IPv4 addresses -/

/-- The members of a `sockaddr_in` in memory: family, port, address and padding. -/
def sockaddrIn (host : Endian) (family port : U16) (addr : U32) : Bytes :=
  host.store family ++ host.store port ++ host.store addr ++
    List.replicate 8 0

/-- The member `ss_family`. -/
def family (host : Endian) (a : Address) : U16 := host.load (a.storage.take 2)

/-- The member `s_addr` after the first bytes were copied to a `sockaddr_in`. -/
def sAddr (host : Endian) (a : Address) : U32 :=
  host.load (((memcpy a.storage a.size).drop 4).take 4)

def ipv4Numeric (host : Endian) (a : Address) : Except Exn (U32) :=
  if a.family host ≠ addressFamilyInet ∨ a.size ≠ sockaddrInSize then
    .error (.runtimeError "ipv4_numeric called on non-IPV4 address")
  else
    .ok (host.ofNetwork (a.sAddr host))

def fromIpv4Numeric (host : Endian) (ipAddress : U32) : Except Exn Address :=
  ofSockaddr (sockaddrIn host addressFamilyInet 0 (host.ofNetwork ipAddress))
    sockaddrInSize

/-! ## The resolver -/

/-- What the functions of this class throw: an exception of the library, an error of
`getaddrinfo` or `getnameinfo`, or what `std::stoi` throws. -/
inductive Error where
  | exn (e : Exn)
  | gai (attempt : String) (code : Int)
  | invalidArgument (what : String)
  deriving DecidableEq, Repr

structure Hints where
  flags : U32
  family : U16
  deriving DecidableEq, Repr

abbrev aiNumerichost : U32 := 0x4
abbrev aiNumericserv : U32 := 0x400
abbrev niNumerichost : U32 := 0x1
abbrev niNumericserv : U32 := 0x2

/-- The resolver of the C library. `getaddrinfo` returns a code and the first of the
addresses that it has found, if any, with its length; `getnameinfo` returns a code
and two strings. -/
structure Resolver where
  getaddrinfo : String → String → Hints → Int × Option (Bytes × Nat)
  getnameinfo : Bytes → Nat → U32 → Int × String × String

/-- The constructor from a node, a service and hints. -/
def resolve (r : Resolver) (node service : String) (hints : Hints) : Except Error Address :=
  match r.getaddrinfo node service hints with
  | (gaiRet, resolved) =>
      if gaiRet ≠ 0 then
        .error (.gai ("getaddrinfo(" ++ node ++ ", " ++ service ++ ")") gaiRet)
      else
        match resolved with
        | none =>
            .error (.exn (.runtimeError "getaddrinfo returned successfully but with no results"))
        | some (addr, addrlen) => (ofSockaddr addr addrlen).mapError .exn

/-- The constructor from a dotted quad and a port. -/
def ofIp (r : Resolver) (ip : String) (port : U16) : Except Error Address :=
  resolve r ip (toString port.toNat) ⟨aiNumerichost ||| aiNumericserv, addressFamilyInet⟩

/-- The characters that `isspace` accepts. -/
def isSpace (c : Char) : Bool := c = ' ' || ('\t' ≤ c && c ≤ '\r')

/-- Whether there is a minus sign, and what follows the sign. -/
def sign : List Char → Bool × List Char
  | '-' :: chars => (true, chars)
  | '+' :: chars => (false, chars)
  | chars => (false, chars)

/-- The function `std::stoi` in base ten. -/
def stoi (str : String) : Except Error Int :=
  let signed := sign (str.toList.dropWhile isSpace)
  let digits := signed.2.takeWhile Char.isDigit
  let value : Int := Nat.ofDigitChars 10 digits 0
  let value := if signed.1 then -value else value
  if digits = [] then
    .error (.invalidArgument "stoi")
  else if value < -(2 ^ 31) ∨ 2 ^ 31 ≤ value then
    .error (.exn (.outOfRange "stoi"))
  else
    .ok value

def ipPort (r : Resolver) (a : Address) : Except Error (String × U16) :=
  match r.getnameinfo a.storage a.size (niNumerichost ||| niNumericserv) with
  | (gniRet, ip, port) =>
      if gniRet ≠ 0 then
        .error (.gai "getnameinfo" gniRet)
      else do
        let port ← stoi port
        return (ip, BitVec.ofInt _ port)

/-- The member function `to_string`. -/
def toText (r : Resolver) (a : Address) : Except Error String := do
  let ipAndPort ← a.ipPort r
  return ipAndPort.1 ++ ":" ++ toString ipAndPort.2.toNat

/-! ## Round trips -/

/-- An address as text, "18.243.0.1". -/
def dottedQuad (ip : U32) : String :=
  ".".intercalate ((NetUnparser.encode ip).map fun byte => toString byte.toNat)

/-- The `sockaddr_in` of an address and a port, which are in network byte order there. -/
def inet (host : Endian) (ip : U32) (port : U16) : Bytes :=
  sockaddrIn host addressFamilyInet (host.ofNetwork port)
    (host.ofNetwork ip)

/-- The resolver translates the numeric forms of an address and a port, back and forth. -/
structure Resolver.Numeric (r : Resolver) (host : Endian) (ip : U32) (port : U16) :
    Prop where
  addrinfo : r.getaddrinfo (dottedQuad ip) (toString port.toNat)
    ⟨aiNumerichost ||| aiNumericserv, addressFamilyInet⟩ =
      (0, some (inet host ip port, sockaddrInSize))
  nameinfo : ∀ storage : Bytes, storage.take sockaddrInSize = inet host ip port →
    r.getnameinfo storage sockaddrInSize (niNumerichost ||| niNumericserv) =
      (0, dottedQuad ip, toString port.toNat)

variable {host : Endian} {ip : U32} {port : U16} {a : Address}

/-- The members of an IPv4 address, one after the other. -/
theorem inet_eq (host : Endian) (ip : U32) (port : U16) :
    inet host ip port = host.store addressFamilyInet ++
      NetUnparser.encode port ++ NetUnparser.encode ip ++
      List.replicate 8 0 := by
  unfold inet sockaddrIn
  rw [Endian.store_ofNetwork, Endian.store_ofNetwork]

@[simp] theorem length_inet (host : Endian) (ip : U32) (port : U16) :
    (inet host ip port).length = sockaddrInSize := by
  rw [inet_eq]
  simp only [List.length_append, Endian.length_store, NetUnparser.length_encode,
    List.length_replicate]
  rfl

theorem encode_injective {w : Width} {val val' : BitVec w.bits}
    (same : NetUnparser.encode val = NetUnparser.encode val') : val = val' := by
  have values := congrArg bigEndian same
  rw [NetUnparser.bigEndian_encode, NetUnparser.bigEndian_encode] at values
  exact BitVec.eq_of_toNat_eq values

theorem inet_injective {ip' : U32} {port' : U16}
    (same : inet host ip port = inet host ip' port') : ip = ip' ∧ port = port' := by
  rw [inet_eq, inet_eq] at same
  obtain ⟨same, -⟩ := List.append_inj same (by simp)
  obtain ⟨same, ips⟩ := List.append_inj same (by simp)
  obtain ⟨-, ports⟩ := List.append_inj same (by simp)
  exact ⟨encode_injective ips, encode_injective ports⟩

theorem ofSockaddr_inet (host : Endian) (ip : U32) (port : U16) :
    ∃ a, ofSockaddr (inet host ip port) sockaddrInSize = .ok a ∧
      a.bytes = inet host ip port ∧ a.size = sockaddrInSize := by
  have available : sockaddrInSize ≤ (inet host ip port).length := by rw [length_inet]
  obtain ⟨a, made, bytes, size⟩ := ofSockaddr_bytes (by decide) available
  refine ⟨a, made, ?_, size⟩
  rw [bytes]
  exact List.take_of_length_le (by rw [length_inet])

/-- The address that is stored is the one that is read. -/
theorem ipv4Numeric_inet (bytes : a.bytes = inet host ip port) (size : a.size = sockaddrInSize) :
    a.ipv4Numeric host = .ok ip := by
  have front : a.storage.take sockaddrInSize = inet host ip port := by
    rw [← bytes, Address.bytes, size]
  have copied : memcpy a.storage a.size = inet host ip port := by
    rw [memcpy, List.takeD_eq_take _ (by rw [a.length, size]; decide), size, front]
  have familyBytes : a.storage.take 2 = host.store addressFamilyInet := by
    have first : a.storage.take 2 = (inet host ip port).take 2 := by
      rw [← front, List.take_take]
      rfl
    rw [first, inet_eq, List.append_assoc, List.append_assoc]
    exact List.take_left' (Endian.length_store ..)
  have addrBytes : ((memcpy a.storage a.size).drop 4).take 4 =
      NetUnparser.encode ip := by
    rw [copied, inet_eq, List.append_assoc, List.drop_left' (by simp [Width.len])]
    exact List.take_left' (NetUnparser.length_encode ..)
  have sameFamily : a.family host = addressFamilyInet := by
    rw [family, familyBytes]
    exact Endian.load_store host _
  unfold ipv4Numeric
  rw [if_neg (by rw [sameFamily, size]; simp), sAddr, addrBytes,
    host.ofNetwork_load (NetUnparser.length_encode ..), NetUnparser.bigEndian_encode,
    BitVec.ofNat_toNat, BitVec.setWidth_eq]

theorem isSpace_of_isDigit {c : Char} (digit : c.isDigit = true) : isSpace c = false := by
  rw [Char.isDigit, Bool.and_eq_true, decide_eq_true_eq, decide_eq_true_eq] at digit
  have low : ¬c ≤ '\r' := fun le => absurd (UInt32.le_trans digit.1 le) (by decide)
  have blank : c ≠ ' ' := by
    rintro rfl
    exact absurd digit.1 (by decide)
  simp [isSpace, low, blank]

/-- The characters of a number in base ten are digits, and are read as the number. -/
theorem stoi_toString {n : Nat} (small : n < 2 ^ 31) : stoi (toString n) = .ok n := by
  have chars : (toString n).toList = Nat.toDigits 10 n := Nat.toList_repr
  have digits : ∀ c ∈ Nat.toDigits 10 n, c.isDigit = true := by
    intro c member
    exact Nat.isDigit_of_mem_toDigits (by decide) (by decide) member
  have value : Nat.ofDigitChars 10 (Nat.toDigits 10 n) 0 = n := Nat.ofDigitChars_ten_toDigits
  obtain ⟨c, cs, split⟩ := List.exists_cons_of_ne_nil (Nat.toDigits_ne_nil (n := n) (b := 10))
  rw [split] at chars digits value
  have first := digits c (List.mem_cons_self ..)
  have whole : (c :: cs).takeWhile Char.isDigit = c :: cs := List.takeWhile_eq_self_iff.mpr digits
  have unsigned : sign (c :: cs) = (false, c :: cs) := by
    unfold sign
    split
    · next minus =>
      rw [(List.cons.inj minus).1] at first
      cases first
    · next plus =>
      rw [(List.cons.inj plus).1] at first
      cases first
    · rfl
  have inside : ¬((n : Int) < -(2 ^ 31) ∨ 2 ^ 31 ≤ (n : Int)) := by omega
  unfold stoi
  rw [chars, List.dropWhile_cons_of_neg (by simp [isSpace_of_isDigit first]), unsigned]
  simp only [Bool.false_eq_true, if_false]
  rw [whole, value, if_neg (List.cons_ne_nil _ _), if_neg inside]

theorem Resolver.Numeric.ofIp_eq {r : Resolver} (numeric : r.Numeric host ip port)
    (made : ofSockaddr (inet host ip port) sockaddrInSize = .ok a) :
    ofIp r (dottedQuad ip) port = .ok a := by
  rw [ofIp, resolve, numeric.addrinfo]
  simp only [ne_eq, not_true_eq_false, if_false]
  rw [made]
  rfl

theorem Resolver.Numeric.ipPort_eq {r : Resolver} (numeric : r.Numeric host ip port)
    (bytes : a.bytes = inet host ip port) (size : a.size = sockaddrInSize) :
    a.ipPort r = .ok (dottedQuad ip, port) := by
  have front : a.storage.take sockaddrInSize = inet host ip port := by
    rw [← bytes, Address.bytes, size]
  have small : port.toNat < 2 ^ 31 := port.isLt.trans (by decide)
  have same : BitVec.ofInt Width.u16.bits (port.toNat : Int) = port := by
    rw [BitVec.ofInt_natCast, BitVec.ofNat_toNat, BitVec.setWidth_eq]
  rw [ipPort, size, numeric.nameinfo a.storage front]
  simp only [ne_eq, not_true_eq_false, if_false]
  rw [stoi_toString small]
  exact congrArg (fun port => Except.ok (dottedQuad ip, port)) same

theorem ofNetwork_zero (host : Endian) : host.ofNetwork (0 : U16) = 0 := by
  cases host <;> decide

/-- **Addresses survive all conversions.** Take a resolver that translates the numeric
forms of an address and a port. On either kind of host, the address that is made
from them has the IP address, the port and the text that it was made from; reading
its IP address as a number gives the number, and the address made from that number
is the same one exactly if the port is zero; and it is equal to the address made
from another pair exactly if the pairs are equal. -/
theorem ofIp_roundTrip {r : Resolver} {ip' : U32} {port' : U16} (numeric : r.Numeric host ip port)
    (numeric' : r.Numeric host ip' port') :
    ∃ a b c, ofIp r (dottedQuad ip) port = .ok a ∧ ofIp r (dottedQuad ip') port' = .ok b ∧
      fromIpv4Numeric host ip = .ok c ∧
      a.ipPort r = .ok (dottedQuad ip, port) ∧
      a.toText r = .ok (dottedQuad ip ++ ":" ++ toString port.toNat) ∧
      a.ipv4Numeric host = .ok ip ∧ c.ipv4Numeric host = .ok ip ∧
      (a.equals c = true ↔ port = 0) ∧
      (a.equals b = true ↔ ip = ip' ∧ port = port') := by
  obtain ⟨a, made, bytes, size⟩ := ofSockaddr_inet host ip port
  obtain ⟨b, made', bytes', size'⟩ := ofSockaddr_inet host ip' port'
  obtain ⟨c, madeZero, bytesZero, sizeZero⟩ := ofSockaddr_inet host ip 0
  have zero : fromIpv4Numeric host ip = .ok c := by
    rw [← madeZero, fromIpv4Numeric, inet, ofNetwork_zero]
  have names := numeric.ipPort_eq bytes size
  refine ⟨a, b, c, numeric.ofIp_eq made, numeric'.ofIp_eq made', zero, names, ?_,
    ipv4Numeric_inet bytes size, ipv4Numeric_inet bytesZero sizeZero, ?_, ?_⟩
  · simp [toText, names]
  · rw [equals_iff]
    refine ⟨?_, ?_⟩
    · rintro rfl
      exact (inet_injective (bytes.symm.trans bytesZero)).2
    · rintro rfl
      exact eq_of_bytes (bytes.trans bytesZero.symm)
  · rw [equals_iff]
    refine ⟨?_, ?_⟩
    · rintro rfl
      exact inet_injective (bytes.symm.trans bytes')
    · rintro ⟨rfl, rfl⟩
      exact eq_of_bytes (bytes.trans bytes'.symm)

/-- A resolver that knows one address. -/
def dnsServer : Resolver where
  getaddrinfo _ _ _ := (0, some (inet .little 0x12470097 53, sockaddrInSize))
  getnameinfo _ _ _ := (0, "18.71.0.151", "53")

theorem ofIp_roundTrip_dnsServer :
    ∃ a, ofIp dnsServer "18.71.0.151" 53 = .ok a ∧ a.ipv4Numeric .little = .ok 0x12470097 := by
  have quad : dottedQuad 0x12470097 = "18.71.0.151" := by decide +kernel
  have numeric : dnsServer.Numeric .little 0x12470097 53 := by
    have port : toString (53 : U16).toNat = "53" := by decide +kernel
    refine ⟨rfl, fun storage front => ?_⟩
    rw [quad, port]
    rfl
  obtain ⟨a, -, -, made, -, -, -, -, number, -⟩ := ofIp_roundTrip numeric numeric
  rw [quad] at made
  exact ⟨a, made, number⟩

end Address

end Sponge
