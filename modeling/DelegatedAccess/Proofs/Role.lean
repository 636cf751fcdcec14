import DelegatedAccess.Proofs.Hex
import DelegatedAccess.Role

/-!
# Which role a text stands for

A role is read from the characters of a text. It can as well be read from the bytes of the text in
UTF-8, two at a time and each by its place, where a character beyond ASCII takes several places. To
look at a place that is not there is then an error.

The main result of this module is that exactly the texts that consist of `0x` and 64 hexadecimal
digits write a role, which is written back in lower case, that any other text is a name, and that
reading byte by byte comes to the same and never leaves the bounds.
-/

namespace DelegatedAccess

/-! ### The bytes of a text -/

/-- Different texts have different bytes. -/
theorem utf8_injective {s t : String} (h : utf8 s = utf8 t) :
  s = t
  := by
  rw [utf8, utf8, String.toUTF8_eq_toByteArray, String.toUTF8_eq_toByteArray] at h
  apply String.toByteArray_inj.mp
  apply ByteArray.ext
  exact Array.toList_inj.mp h

/-- An ASCII character has one byte. -/
theorem utf8EncodeChar_of_lt {c : Char} (h : c.toNat < 128) :
  String.utf8EncodeChar c = [c.toUInt8]
  := by
  have hsize : c.utf8Size = 1 := by
    rw [Char.utf8Size_eq_one_iff, UInt32.le_iff_toNat_le]
    exact Nat.le_of_lt_succ h
  rw [String.utf8EncodeChar_eq_singleton hsize, Char.toUInt8_val]

/-- A text of ASCII characters has a byte for each. -/
theorem utf8_ofList {cs : List Char} (h : ∀ c ∈ cs, c.toNat < 128) :
  utf8 (String.ofList cs) = cs.map Char.toUInt8
  := by
  have hbytes : utf8 (String.ofList cs) = cs.flatMap String.utf8EncodeChar := by
    rw [utf8, String.toUTF8_eq_toByteArray]
    exact List.toList_data_toByteArray
  rw [hbytes, List.map_eq_flatMap]
  apply List.flatMap_congr
  intro c hc
  exact utf8EncodeChar_of_lt (h c hc)

/-- An ASCII character is the one with its byte. -/
theorem ofUInt8_toUInt8 {c : Char} (h : c.toNat < 128) :
  Char.ofUInt8 c.toUInt8 = c
  := by
  have hall : ∀ k < 128, Char.ofUInt8 (Char.ofNat k).toUInt8 = Char.ofNat k := by decide +kernel
  rw [← Char.ofNat_toNat c]
  exact hall c.toNat h

/-- What holds of every number below 256 holds of every byte. -/
theorem forall_byte {P : UInt8 → Prop} (h : ∀ k < 256, P (UInt8.ofNat k)) (b : UInt8) :
  P b
  := by
  rw [← UInt8.ofNat_toNat (x := b)]
  exact h b.toNat b.toNat_lt

/-- A byte is that of its character. -/
theorem toUInt8_ofUInt8 :
  ∀ b : UInt8, (Char.ofUInt8 b).toUInt8 = b
  := forall_byte (by decide +kernel)

namespace Role

/-! ### Reading characters -/

/-- A text writes a digest when it is `0x` and 64 hexadecimal digits of either case. -/
def IsDigestText (text : String) : Prop :=
  ∃ digits, text.toList = '0' :: 'x' :: digits ∧ digits.length = 64 ∧ ∀ c ∈ digits, c ∈ Hex.digits

/-- The characters of a role as it is written. -/
theorem toList_hex (r : Role) :
  r.hex.toList = '0' :: 'x' :: Hex.encode r.digest.bytes
  := by
  rw [hex, Hex.ofBytes, String.toList_append, String.toList_ofList, String.toList_ofList]
  rfl

/-- A role is read from `0x` and what can be read as its digest. -/
theorem ofHex?_eq_some_iff_decode? {text : String} {r : Role} :
  ofHex? text = some r ↔
    ∃ digits, text.toList = '0' :: 'x' :: digits ∧ Hex.decode? digits = some r.digest.bytes
  := by
  obtain ⟨d⟩ := r
  constructor
  · intro h
    rw [ofHex?] at h
    split at h
    next digits htext =>
      obtain ⟨bs, hbs, h⟩ := Option.bind_eq_some_iff.mp h
      obtain ⟨d', hd, h⟩ := Option.bind_eq_some_iff.mp h
      obtain rfl := Role.mk.inj (Option.some.inj h)
      obtain rfl := Digest.ofBytes?_eq_some_iff.mp hd
      exact ⟨digits, htext, hbs⟩
    next => contradiction
  · rintro ⟨digits, htext, hdigits⟩
    have hd := Digest.ofBytes?_eq_some_iff.mpr (Eq.refl d.bytes)
    simp only [ofHex?, htext, hdigits, Option.bind_eq_bind, Option.bind_some, hd]
    rfl

/-- A role is read from what writes its digest in any case, and from nothing else. -/
theorem ofHex?_eq_some_iff {text : String} {r : Role} :
  ofHex? text = some r ↔ IsDigestText text ∧ r.hex = text.toLower
  := by
  have hlower : text.toLower.toList = text.toList.map Char.toLower := String.toList_map
  rw [ofHex?_eq_some_iff_decode?]
  constructor
  · rintro ⟨digits, htext, h⟩
    obtain ⟨hdigits, hcase⟩ := Hex.decode?_eq_some_iff.mp h
    refine ⟨⟨digits, htext, ?_, hdigits⟩, ?_⟩
    · rw [← List.length_map, ← hcase, Hex.length_encode, Digest.length_bytes]
    · apply String.toList_inj.mp
      rw [toList_hex, hlower, htext, hcase]
      rfl
  · rintro ⟨⟨digits, htext, _, hdigits⟩, hcase⟩
    refine ⟨digits, htext, Hex.decode?_eq_some_iff.mpr ⟨hdigits, ?_⟩⟩
    have hchars := String.toList_inj.mpr hcase
    rw [toList_hex, hlower, htext, List.map_cons, List.map_cons] at hchars
    exact (List.cons.inj (List.cons.inj hchars).2).2

/-- A role is read from every text that writes a digest. -/
theorem exists_ofHex?_iff {text : String} :
  (∃ r, ofHex? text = some r) ↔ IsDigestText text
  := by
  constructor
  · rintro ⟨r, h⟩
    exact (ofHex?_eq_some_iff.mp h).1
  · rintro ⟨digits, htext, hlength, hdigits⟩
    obtain ⟨bs, hbs⟩ := Hex.exists_decode? hdigits (by rw [hlength])
    have hbytes : bs.length = 32 := by
      have hcase := congrArg List.length (Hex.of_decode? hbs).2
      rw [Hex.length_encode, List.length_map, hlength] at hcase
      omega
    exact ⟨⟨⟨bs.toArray, hbytes⟩⟩, ofHex?_eq_some_iff_decode?.mpr ⟨digits, htext, hbs⟩⟩

/-- A role is read back from the text that is written for it. -/
theorem ofHex?_hex (r : Role) :
  ofHex? r.hex = some r
  := ofHex?_eq_some_iff_decode?.mpr ⟨_, r.toList_hex, Hex.decode?_encode r.digest.bytes⟩

/-- Two texts write the same role when they write digests and differ in no more than case. -/
theorem exists_ofHex?_and_iff {s t : String} :
  (∃ r, ofHex? s = some r ∧ ofHex? t = some r) ↔
    IsDigestText s ∧ IsDigestText t ∧ s.toLower = t.toLower
  := by
  constructor
  · rintro ⟨r, hs, ht⟩
    obtain ⟨hs, hslower⟩ := ofHex?_eq_some_iff.mp hs
    obtain ⟨ht, htlower⟩ := ofHex?_eq_some_iff.mp ht
    exact ⟨hs, ht, hslower.symm.trans htlower⟩
  · rintro ⟨hs, ht, hcase⟩
    obtain ⟨r, hr⟩ := exists_ofHex?_iff.mpr hs
    refine ⟨r, hr, ofHex?_eq_some_iff.mpr ⟨ht, ?_⟩⟩
    rw [(ofHex?_eq_some_iff.mp hr).2, hcase]

end Role

/-! ### Reading bytes -/

/-- The number that the byte of a hexadecimal digit stands for. -/
def Hex.nibble? (b : UInt8) : Option UInt8 :=
  if 0x30 ≤ b ∧ b ≤ 0x39 then some (b - 0x30)
  else if 0x61 ≤ b ∧ b ≤ 0x66 then some (b - 0x61 + 10)
  else if 0x41 ≤ b ∧ b ≤ 0x46 then some (b - 0x41 + 10)
  else none

/-- A byte is looked for, or written, at a place that is not there. -/
inductive OutOfBounds where
  | read (place : Nat)
  | write (place : Nat)
deriving DecidableEq

/-- Reads the bytes of a digest from the `i`-th on, each from the bytes of two digits. It is out of
bounds to look for a second digit that is missing, or to write a byte for which the digest has no
place. -/
def Digest.scan (i : Nat) (d : Digest) : Bytes → Except OutOfBounds (Option Digest)
  | [] => .ok (some d)
  | [high] =>
      match Hex.nibble? high with
      | some _ => .error (.read 1)
      | none => .ok none
  | high :: low :: rest =>
      match Hex.nibble? high, Hex.nibble? low with
      | some h, some l =>
          if hi : i < 32 then scan (i + 1) (d.set i (h <<< 4 ||| l)) rest
          else .error (.write i)
      | _, _ => .ok none

/-- Reads a role from the bytes of a text: those of `0x`, and 64 more. -/
def Role.scan (bs : Bytes) : Except OutOfBounds (Option Role) :=
  match bs with
  | 0x30 :: 0x78 :: digits =>
      if digits.length = 64 then do
        let d? ← Digest.scan 0 (Vector.replicate 32 0) digits
        return d?.map Role.mk
      else .ok none
  | _ => .ok none

namespace Hex

/-- A byte stands for the same number as its character. -/
theorem nibble?_eq :
  ∀ b : UInt8, nibble? b = (value? (Char.ofUInt8 b)).map UInt8.ofNat
  := forall_byte (by decide +kernel)

/-- The numbers of two digits make up a byte. -/
theorem shiftLeft_or {h l : Nat} (hh : h < 16) (hl : l < 16) :
  UInt8.ofNat h <<< 4 ||| UInt8.ofNat l = UInt8.ofNat (16 * h + l)
  := by
  have hall : ∀ h < 16, ∀ l < 16, UInt8.ofNat h <<< 4 ||| UInt8.ofNat l =
      UInt8.ofNat (16 * h + l) := by
    decide +kernel
  exact hall h hh l hl

end Hex

namespace Digest

/-- A byte put at a place follows the bytes before that place. -/
theorem take_bytes_set (d : Digest) {i : Nat} (hi : i < 32) (b : UInt8) :
  (bytes (d.set i b)).take (i + 1) = d.bytes.take i ++ [b]
  := by
  have hlt : i < (bytes (d.set i b)).length := by rwa [length_bytes]
  have hself : (bytes (d.set i b))[i] = b := by simp [bytes]
  rw [List.take_succ_eq_append_getElem hlt, hself, bytes, Vector.toList_set,
    List.take_set_of_le (Nat.le_refl i)]
  rfl

/-- A digest may be told by its bytes. -/
theorem map_bytes_eq_some_iff {d? : Option Digest} {d : Digest} :
  d?.map bytes = some d.bytes ↔ d? = some d
  := by
  cases d? with
  | none => simp
  | some d' => simp [bytes, Vector.toList_inj]

/-- With two digits for each byte that is left, no place is out of bounds, and the bytes are those
that the characters of the digits write. -/
theorem scan_eq {i n : Nat} (hplace : i + n = 32) (d : Digest) {digits : Bytes}
    (hlength : digits.length = 2 * n) :
  ∃ read?, scan i d digits = .ok read? ∧
    read?.map bytes = (Hex.decode? (digits.map Char.ofUInt8)).map (d.bytes.take i ++ ·)
  := by
  induction n generalizing i d digits with
  | zero =>
      obtain rfl : i = 32 := hplace
      obtain rfl := List.eq_nil_of_length_eq_zero hlength
      have htake : d.bytes.take 32 = d.bytes := List.take_of_length_le (by simp)
      refine ⟨some d, rfl, ?_⟩
      simp [Hex.decode?, htake]
  | succ n ih =>
      obtain ⟨high, digits, rfl⟩ := List.exists_cons_of_length_eq_add_one hlength
      obtain ⟨low, rest, rfl⟩ := List.exists_cons_of_length_eq_add_one (Nat.succ.inj hlength)
      have hrest : rest.length = 2 * n := Nat.succ.inj (Nat.succ.inj hlength)
      have hi : i < 32 := by omega
      rw [scan, Hex.nibble?_eq, Hex.nibble?_eq, List.map_cons, List.map_cons, Hex.decode?]
      cases hx : Hex.value? (Char.ofUInt8 high) with
      | none => exact ⟨none, rfl, rfl⟩
      | some x =>
          cases hy : Hex.value? (Char.ofUInt8 low) with
          | none => exact ⟨none, rfl, rfl⟩
          | some y =>
              obtain ⟨read?, hscan, hread⟩ := ih (i := i + 1) (by omega)
                (d.set i (UInt8.ofNat (16 * x + y))) hrest
              refine ⟨read?, ?_, ?_⟩
              · rw [← Hex.shiftLeft_or (Hex.lt_of_value? hx) (Hex.lt_of_value? hy)] at hscan
                simp only [Option.map_some, dif_pos hi]
                exact hscan
              · rw [hread, take_bytes_set d hi]
                cases Hex.decode? (rest.map Char.ofUInt8) with
                | none => rfl
                | some bs => simp

end Digest

namespace Role

/-- A text has the bytes of `0x` and of some digits when it has these characters. -/
theorem utf8_eq_iff {text : String} {digits : List Char} (h : ∀ c ∈ digits, c ∈ Hex.digits) :
  utf8 text = 0x30 :: 0x78 :: digits.map Char.toUInt8 ↔ text.toList = '0' :: 'x' :: digits
  := by
  have hascii : ∀ c ∈ '0' :: 'x' :: digits, c.toNat < 128 := by
    rw [List.forall_mem_cons, List.forall_mem_cons]
    exact ⟨by decide, by decide, fun c hc => Hex.toNat_lt_of_mem_digits (h c hc)⟩
  have hbytes : utf8 (String.ofList ('0' :: 'x' :: digits)) =
      0x30 :: 0x78 :: digits.map Char.toUInt8 := utf8_ofList hascii
  rw [← hbytes]
  constructor
  · intro htext
    rw [utf8_injective htext, String.toList_ofList]
  · intro htext
    rw [← htext, String.ofList_toList]

/-- A role is read from a text whose bytes are those of `0x` and 64 more that write its digest. -/
theorem ofHex?_eq_some_iff_utf8 {text : String} {r : Role} :
  ofHex? text = some r ↔
    ∃ digits, utf8 text = 0x30 :: 0x78 :: digits ∧ digits.length = 64 ∧
      Hex.decode? (digits.map Char.ofUInt8) = some r.digest.bytes
  := by
  rw [ofHex?_eq_some_iff_decode?]
  constructor
  · rintro ⟨digits, htext, hdecode⟩
    obtain ⟨hdigits, hcase⟩ := Hex.of_decode? hdecode
    refine ⟨digits.map Char.toUInt8, (utf8_eq_iff hdigits).mpr htext, ?_, ?_⟩
    · rw [List.length_map, ← List.length_map, ← hcase, Hex.length_encode, Digest.length_bytes]
    · have hback : (digits.map Char.toUInt8).map Char.ofUInt8 = digits := by
        rw [List.map_map]
        refine (List.map_congr_left ?_).trans (List.map_id digits)
        intro c hc
        exact ofUInt8_toUInt8 (Hex.toNat_lt_of_mem_digits (hdigits c hc))
      rw [hback, hdecode]
  · rintro ⟨digits, htext, _, hdecode⟩
    have hback : (digits.map Char.ofUInt8).map Char.toUInt8 = digits := by
      rw [List.map_map]
      exact List.map_id'' toUInt8_ofUInt8 digits
    refine ⟨digits.map Char.ofUInt8, ?_, hdecode⟩
    apply (utf8_eq_iff (Hex.of_decode? hdecode).1).mp
    rw [htext, hback]

/-- Where 64 bytes follow those of `0x`, a role is read when they write its digest. -/
theorem ofHex?_eq_some_iff_of_utf8 {text : String} {digits : Bytes}
    (htext : utf8 text = 0x30 :: 0x78 :: digits) (hlength : digits.length = 64) {r : Role} :
  ofHex? text = some r ↔ Hex.decode? (digits.map Char.ofUInt8) = some r.digest.bytes
  := by
  rw [ofHex?_eq_some_iff_utf8]
  constructor
  · rintro ⟨digits', htext', _, h⟩
    rw [htext] at htext'
    obtain rfl := (List.cons.inj (List.cons.inj htext').2).2
    exact h
  · intro h
    exact ⟨digits, htext, hlength, h⟩

/-- No role is read from a text whose bytes are not those of `0x` and 64 more. -/
theorem ofHex?_eq_none {text : String}
    (h : ∀ digits, utf8 text = 0x30 :: 0x78 :: digits → digits.length ≠ 64) :
  ofHex? text = none
  := by
  rw [Option.eq_none_iff_forall_ne_some]
  intro r hr
  obtain ⟨digits, htext, hlength, _⟩ := ofHex?_eq_some_iff_utf8.mp hr
  exact h digits htext hlength

/-- Reading the bytes of a text never leaves the bounds, and gives the role that is read from its
characters. -/
theorem scan_utf8 (text : String) :
  scan (utf8 text) = .ok (ofHex? text)
  := by
  rw [scan.eq_def]
  split
  next digits htext =>
    split
    next hlength =>
      obtain ⟨d?, hscan, hread⟩ :=
        Digest.scan_eq (Nat.zero_add 32) (Vector.replicate 32 0) hlength
      rw [List.take_zero] at hread
      have hbytes : d?.map Digest.bytes = Hex.decode? (digits.map Char.ofUInt8) :=
        hread.trans Option.map_id'
      have hsame : d?.map Role.mk = ofHex? text := by
        apply Option.ext
        rintro ⟨d⟩
        rw [ofHex?_eq_some_iff_of_utf8 htext hlength, ← hbytes, Digest.map_bytes_eq_some_iff]
        cases d? <;> simp
      rw [hscan, ← hsame]
      rfl
    next hlength =>
      rw [ofHex?_eq_none]
      intro digits' htext'
      rw [htext] at htext'
      obtain rfl := (List.cons.inj (List.cons.inj htext').2).2
      exact hlength
  next hbytes =>
    rw [ofHex?_eq_none]
    intro digits htext
    exact absurd htext (hbytes digits)

/-- A role is read back from the text that is written for it. A text is read as the digest of a
role exactly when it consists of `0x` and 64 hexadecimal digits of either case, and the role is
written as that text in lower case, so that two texts write the same role exactly when they differ
in no more than the case of digits. From any other text no digest is read, and it stands for the
SHA-256 digest of its bytes. Reading the bytes of a text by their places never leaves the bounds,
and comes to the same as reading its characters. -/
theorem parse_exact (r : Role) (s t : String) :
  ofHex? r.hex = some r ∧ parse r.hex = r ∧
    (ofHex? s = some r ↔ IsDigestText s ∧ r.hex = s.toLower) ∧
    ((∃ r, ofHex? s = some r) ↔ IsDigestText s) ∧
    ((∃ r, ofHex? s = some r ∧ ofHex? t = some r) ↔
      IsDigestText s ∧ IsDigestText t ∧ s.toLower = t.toLower) ∧
    (IsDigestText s ∨ ofHex? s = none ∧ parse s = ⟨Sha256.hash (utf8 s)⟩) ∧
    scan (utf8 s) = .ok (ofHex? s)
  := by
  refine ⟨r.ofHex?_hex, ?_, ofHex?_eq_some_iff, exists_ofHex?_iff, exists_ofHex?_and_iff, ?_,
    scan_utf8 s⟩
  · rw [parse, ofHex?_hex]
    rfl
  · cases hread : ofHex? s with
    | some r => exact Or.inl (exists_ofHex?_iff.mp ⟨r, hread⟩)
    | none =>
        refine Or.inr ⟨rfl, ?_⟩
        rw [parse, hread]
        rfl

end Role

end DelegatedAccess
