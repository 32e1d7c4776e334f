/-
# Bytes

What is hashed and compared is a word of bytes: numbers at a fixed width, byte strings
behind their lengths, and the encodings of symbols. Each of them can be read off the
front of a longer word.

Key theorems:
- `delimited_beBytes`, `delimited_appendLenPrefixedBytes`, `delimited_xdrSymbol`;
- `idempotencyPayload_inj`: the bytes hashed into the key of an event determine the
  domain, the shipment, the topic and the counter.
-/
import Navin.Events
import Navin.Lib.Delimited
import Mathlib.Tactic.Ring

namespace Navin

/-! ### Numbers -/

theorem length_beBytes (n x : ℕ) : (beBytes n x).length = n := by
  induction n with
  | zero => rfl
  | succ n ih => simp [beBytes, ih]

theorem beBytes_mod {n x y : ℕ} (h : beBytes n x = beBytes n y) : x % 256 ^ n = y % 256 ^ n := by
  induction n with
  | zero => simp [Nat.mod_one]
  | succ n ih =>
    simp only [beBytes, List.cons.injEq] at h
    have hbyte : x / 256 ^ n % 256 = y / 256 ^ n % 256 := by
      simpa using congrArg UInt8.toNat h.1
    rw [Nat.mod_pow_succ, Nat.mod_pow_succ, ih h.2, hbyte]

theorem delimited_beBytes (n : ℕ) : Delimited (· < 256 ^ n) (beBytes n) := by
  refine .of_length (length_beBytes n) fun x y hx hy h => ?_
  have hmod := beBytes_mod h
  rwa [Nat.mod_eq_of_lt hx, Nat.mod_eq_of_lt hy] at hmod

/-- What `from_be_bytes` reads of the low bytes of a number. -/
theorem foldl_beBytes (n x y : ℕ) :
    (beBytes n x).foldl (fun z b => z * 256 + b.toNat) y = y * 256 ^ n + x % 256 ^ n := by
  induction n generalizing y with
  | zero => simp [beBytes, Nat.mod_one]
  | succ n ih =>
    have hsplit : x % 256 ^ (n + 1) = x % 256 ^ n + 256 ^ n * (x / 256 ^ n % 256) := by
      rw [pow_succ, Nat.mod_mul]
    rw [beBytes, List.foldl_cons, ih, UInt8.toNat_ofNat', hsplit]
    ring

theorem fromBeBytes_beBytes {n x : ℕ} (h : x < 256 ^ n) : fromBeBytes (beBytes n x) = x := by
  unfold fromBeBytes
  rw [foldl_beBytes, Nat.mod_eq_of_lt h, zero_mul, zero_add]

/-! ### Symbols -/

theorem length_xdrSymbol (bytes : List UInt8) :
    (xdrSymbol bytes).length = 8 + bytes.length + (4 - bytes.length % 4) % 4 := by
  simp only [xdrSymbol, List.length_append, length_beBytes, List.length_replicate]

theorem Symbol.length_toXdr (s : Symbol) :
    s.toXdr.length = 8 + s.bytes.length + (4 - s.bytes.length % 4) % 4 := length_xdrSymbol s.bytes

theorem delimited_xdrSymbol : Delimited (fun bytes => bytes.length < 256 ^ 4) xdrSymbol := by
  have h := ((delimited_beBytes 4).prefixed.tagged (beBytes 4 15)).padded
    fun bytes : List UInt8 => List.replicate ((4 - bytes.length % 4) % 4) (0 : UInt8)
  intro a b r s ha hb heq
  refine h ha hb ?_
  simpa only [xdrSymbol, List.append_assoc] using heq

/-- The copy of an encoding in a buffer of 32 bytes. -/
def xdrBuffer (xdr : List UInt8) : List UInt8 := xdr.take 32 ++ List.replicate (32 - xdr.length) 0

/-- What is read back from the buffer: the length, and the name if it fits. -/
theorem xdrBuffer_xdrSymbol (bytes : List UInt8) :
    (xdrBuffer (xdrSymbol bytes)).length = 32 ∧
      ((xdrBuffer (xdrSymbol bytes)).drop 4).take 4 = beBytes 4 bytes.length ∧
      (bytes.length ≤ 24 → ((xdrBuffer (xdrSymbol bytes)).drop 8).take bytes.length = bytes) := by
  unfold xdrBuffer
  obtain ⟨rest, hxdr⟩ : ∃ rest, xdrSymbol bytes =
      beBytes 4 15 ++ (beBytes 4 bytes.length ++ (bytes ++ rest)) :=
    ⟨_, by simp only [xdrSymbol, List.append_assoc]; rfl⟩
  have htake : (xdrSymbol bytes).take 32 =
      beBytes 4 15 ++ (beBytes 4 bytes.length ++ (bytes ++ rest).take 24) := by
    rw [hxdr, List.take_append, List.take_append, length_beBytes, length_beBytes,
      List.take_of_length_le (by rw [length_beBytes]; omega),
      List.take_of_length_le (by rw [length_beBytes]; omega)]
  refine ⟨?_, ?_, fun hle => ?_⟩
  · rw [List.length_append, List.length_take, List.length_replicate]
    omega
  · rw [htake, List.append_assoc, List.append_assoc, List.drop_left' (length_beBytes 4 15),
      List.take_left' (length_beBytes 4 _)]
  · have hfull : (bytes ++ rest).take 24 = bytes ++ rest.take (24 - bytes.length) := by
      rw [List.take_append, List.take_of_length_le hle]
    rw [htake, hfull, List.append_assoc, List.append_assoc, ← List.append_assoc (beBytes 4 15),
      List.drop_left' (by rw [List.length_append, length_beBytes, length_beBytes]),
      List.append_assoc, List.take_left' rfl]

/-! ### Keys of events -/

/-- `append_len_prefixed_bytes`, what it appends. -/
def appendLenPrefixedBytes (data : List UInt8) : List UInt8 := beBytes 4 data.length ++ data

theorem delimited_appendLenPrefixedBytes :
    Delimited (fun data => data.length < 256 ^ 4) appendLenPrefixedBytes :=
  (delimited_beBytes 4).prefixed

theorem idempotencyPayload_eq (domain id : ℕ) (eventType : List UInt8) (eventCounter : ℕ) :
    idempotencyPayload domain id eventType eventCounter =
      appendLenPrefixedBytes (beBytes 1 domain) ++ beBytes 8 id ++
        appendLenPrefixedBytes eventType ++ beBytes 4 eventCounter := by
  simp only [idempotencyPayload, appendLenPrefixedBytes, length_beBytes, List.append_assoc]

/-- The bytes that are hashed into the key of an event tell its domain, its shipment, its
topic and its counter. -/
theorem idempotencyPayload_inj {domain domain' id id' eventCounter eventCounter' : ℕ}
    {eventType eventType' : List UInt8} (hd : domain < 2 ^ 8) (hd' : domain' < 2 ^ 8)
    (hid : id < 2 ^ 64) (hid' : id' < 2 ^ 64) (ht : eventType.length < 2 ^ 32)
    (ht' : eventType'.length < 2 ^ 32) (hc : eventCounter < 2 ^ 32) (hc' : eventCounter' < 2 ^ 32) :
    idempotencyPayload domain id eventType eventCounter =
      idempotencyPayload domain' id' eventType' eventCounter' ↔
    domain = domain' ∧ id = id' ∧ eventType = eventType' ∧ eventCounter = eventCounter' := by
  constructor
  · intro h
    have hone (x : ℕ) : (beBytes 1 x).length < 256 ^ 4 := by
      rw [length_beBytes]
      decide
    rw [idempotencyPayload_eq, idempotencyPayload_eq] at h
    simp only [List.append_assoc] at h
    obtain ⟨hdomain, h⟩ := delimited_appendLenPrefixedBytes (hone _) (hone _) h
    obtain ⟨hshipment, h⟩ := delimited_beBytes 8 hid hid' h
    obtain ⟨htopic, h⟩ := delimited_appendLenPrefixedBytes ht ht' h
    have hcounter := (delimited_beBytes 4).inj hc hc' h
    exact ⟨(delimited_beBytes 1).inj hd hd' hdomain, hshipment, htopic, hcounter⟩
  · rintro ⟨rfl, rfl, rfl, rfl⟩
    rfl

/-- A byte moved from the topic to the counter gives another payload, and so does another
domain. -/
theorem idempotencyPayload_inj_split :
    idempotencyPayload HashDomain.escrow 7 [1, 0] 1 ≠ idempotencyPayload HashDomain.escrow 7 [1] 1 ∧
    idempotencyPayload HashDomain.escrow 7 [1] 1 ≠
      idempotencyPayload HashDomain.shipment 7 [1] 1 := by
  constructor
  · intro h
    have htopic := ((idempotencyPayload_inj (by decide) (by decide) (by decide) (by decide)
      (by decide) (by decide) (by decide) (by decide)).mp h).2.2.1
    exact absurd htopic (by decide)
  · intro h
    have hdomain := ((idempotencyPayload_inj (by decide) (by decide) (by decide) (by decide)
      (by decide) (by decide) (by decide) (by decide)).mp h).1
    exact absurd hdomain (by decide)

end Navin
