import Mathlib.Tactic.Common

/-!
# Percent-encoding

Decoding of percent-encoded text: escapes become bytes, and the bytes are read as UTF-8, with
replacement characters where they are not UTF-8.  A decoder may leave some escapes as they are.

Text without a percent sign is its own decoding (`decode_of_notMem`), which needs that UTF-8 reads
back what it wrote (`utf8Decode_utf8Encode`).  It is the only fact about decoding that is needed to
compare code that decodes with code that does not.
-/

namespace Tugboat.Percent

/-! ## UTF-8 -/

def encodeChar (c : Char) : List ℕ :=
  let n := c.toNat
  if n < 0x80 then [n]
  else if n < 0x800 then [0xC0 + n / 64, 0x80 + n % 64]
  else if n < 0x10000 then [0xE0 + n / 4096, 0x80 + n / 64 % 64, 0x80 + n % 64]
  else [0xF0 + n / 262144, 0x80 + n / 4096 % 64, 0x80 + n / 64 % 64, 0x80 + n % 64]

/-- The first byte of a longer sequence: its bits, the number of bytes that follow, and the range
of the next byte. -/
def lead (b : ℕ) : Option (ℕ × ℕ × ℕ × ℕ) :=
  if 0xC2 ≤ b ∧ b ≤ 0xDF then some (b - 0xC0, 1, 0x80, 0xBF)
  else if b = 0xE0 then some (0, 2, 0xA0, 0xBF)
  else if b = 0xED then some (0xD, 2, 0x80, 0x9F)
  else if 0xE1 ≤ b ∧ b ≤ 0xEF then some (b - 0xE0, 2, 0x80, 0xBF)
  else if b = 0xF0 then some (0, 3, 0x90, 0xBF)
  else if 0xF1 ≤ b ∧ b ≤ 0xF3 then some (b - 0xF0, 3, 0x80, 0xBF)
  else if b = 0xF4 then some (4, 3, 0x80, 0x8F)
  else none

/-- Read the `k` bytes that follow, the first of them in the range from `lo` to `hi`. -/
def follow (acc : ℕ) : (k lo hi : ℕ) → List ℕ → Option ℕ × List ℕ
  | 0, _, _, bs => (some acc, bs)
  | _ + 1, _, _, [] => (none, [])
  | k + 1, lo, hi, b :: bs =>
    if lo ≤ b ∧ b ≤ hi then follow (acc * 64 + (b - 0x80)) k 0x80 0xBF bs else (none, b :: bs)

/-- Stands for bytes that are not UTF-8. -/
def replacement : Char := Char.ofNat 0xFFFD

/-- The first character, and the bytes after it. -/
def decodeChar (b : ℕ) (bs : List ℕ) : Char × List ℕ :=
  if b < 0x80 then (Char.ofNat b, bs)
  else
    match lead b with
    | none => (replacement, bs)
    | some (acc, k, lo, hi) =>
      let (n, rest) := follow acc k lo hi bs
      ((n.map Char.ofNat).getD replacement, rest)

def decodeUpTo : (fuel : ℕ) → List ℕ → List Char
  | _, [] => []
  | 0, _ :: _ => []
  | fuel + 1, b :: bs => (decodeChar b bs).1 :: decodeUpTo fuel (decodeChar b bs).2

/-- The characters of a text.  There are no more characters than bytes. -/
def utf8Decode (bs : List ℕ) : List Char := decodeUpTo bs.length bs

def utf8Encode (cs : List Char) : List ℕ := cs.flatMap encodeChar

variable {acc lo hi n : ℕ} {rest : List ℕ}

/-- A first byte with its continuation in range is decoded to its bits and those that follow. -/
lemma decodeChar_of_lead {b k : ℕ} {bs : List ℕ} {c : Char} (hlead : lead b = some (acc, k, lo, hi))
    (hb : 0x80 ≤ b) (hfollow : follow acc k lo hi bs = (some n, rest)) (hc : Char.ofNat n = c) :
    decodeChar b bs = (c, rest) := by
  simp [decodeChar, if_neg (Nat.not_lt.2 hb), hlead, hfollow, hc]

/-- Reading one byte and going on, when bytes of any value follow. -/
lemma follow_succ {k x : ℕ} (hlo : lo ≤ 0x80 + x) (hhi : 0x80 + x ≤ hi) :
    follow acc (k + 1) lo hi ((0x80 + x) :: rest) = follow (acc * 64 + x) k 0x80 0xBF rest := by
  simp only [follow, if_pos (And.intro hlo hhi), Nat.add_sub_cancel_left]

lemma follow_one {x : ℕ} (hlo : lo ≤ 0x80 + x) (hhi : 0x80 + x ≤ hi) :
    follow acc 1 lo hi ((0x80 + x) :: rest) = (some (acc * 64 + x), rest) := follow_succ hlo hhi

/-- The first of three bytes.  The range of the next byte leaves out what has a shorter encoding
and what is not a character. -/
lemma lead_three (hlow : 0x800 ≤ n) (hhigh : n < 0x10000) (hvalid : n < 0xD800 ∨ 0xDFFF < n) :
    ∃ lo hi, lead (0xE0 + n / 4096) = some (n / 4096, 2, lo, hi) ∧
      lo ≤ 0x80 + n / 64 % 64 ∧ 0x80 + n / 64 % 64 ≤ hi := by
  by_cases h0 : n / 4096 = 0
  · exact ⟨0xA0, 0xBF, by rw [h0]; rfl, by omega, by omega⟩
  by_cases hD : n / 4096 = 0xD
  · exact ⟨0x80, 0x9F, by rw [hD]; rfl, by omega, by omega⟩
  refine ⟨0x80, 0xBF, ?_, by omega, by omega⟩
  rw [lead, if_neg (by omega), if_neg (by omega), if_neg (by omega), if_pos (by omega),
    Nat.add_sub_cancel_left]

lemma lead_four (hlow : 0x10000 ≤ n) (hhigh : n < 0x110000) :
    ∃ lo hi, lead (0xF0 + n / 262144) = some (n / 262144, 3, lo, hi) ∧
      lo ≤ 0x80 + n / 4096 % 64 ∧ 0x80 + n / 4096 % 64 ≤ hi := by
  by_cases h0 : n / 262144 = 0
  · exact ⟨0x90, 0xBF, by rw [h0]; rfl, by omega, by omega⟩
  by_cases h4 : n / 262144 = 4
  · exact ⟨0x80, 0x8F, by rw [h4]; rfl, by omega, by omega⟩
  refine ⟨0x80, 0xBF, ?_, by omega, by omega⟩
  rw [lead, if_neg (by omega), if_neg (by omega), if_neg (by omega), if_neg (by omega),
    if_neg (by omega), if_pos (by omega), Nat.add_sub_cancel_left]

lemma exists_decodeChar (c : Char) (rest : List ℕ) :
    ∃ b bs, encodeChar c ++ rest = b :: bs ∧ decodeChar b bs = (c, rest) := by
  have hvalid : c.toNat < 0xD800 ∨ (0xDFFF < c.toNat ∧ c.toNat < 0x110000) := c.valid
  have hc : Char.ofNat c.toNat = c := Char.ofNat_toNat c
  unfold encodeChar
  generalize c.toNat = n at hvalid hc ⊢
  dsimp only
  -- by the number of bytes; in each case the first byte says how many follow
  split
  next h1 =>
    exact ⟨n, rest, rfl, by simp only [decodeChar, if_pos h1, hc]⟩
  rename_i h1
  split
  next h2 =>
    have hlead : lead (0xC0 + n / 64) = some (n / 64, 1, 0x80, 0xBF) := by
      rw [lead, if_pos (by omega), Nat.add_sub_cancel_left]
    refine ⟨_, _, rfl, decodeChar_of_lead hlead (by omega) (follow_one (by omega) (by omega)) ?_⟩
    rw [← hc]
    congr 1
    omega
  rename_i h2
  split
  next h3 =>
    obtain ⟨lo, hi, hlead, hlo, hhi⟩ := lead_three (Nat.not_lt.1 h2) h3 (by omega)
    refine ⟨_, _, rfl, decodeChar_of_lead hlead (by omega)
      ((follow_succ hlo hhi).trans (follow_one (by omega) (by omega))) ?_⟩
    rw [← hc]
    congr 1
    omega
  next h3 =>
    obtain ⟨lo, hi, hlead, hlo, hhi⟩ := lead_four (Nat.not_lt.1 h3) (by omega)
    refine ⟨_, _, rfl, decodeChar_of_lead hlead (by omega)
      ((follow_succ hlo hhi).trans
        ((follow_succ (by omega) (by omega)).trans (follow_one (by omega) (by omega)))) ?_⟩
    rw [← hc]
    congr 1
    omega

lemma decodeUpTo_utf8Encode :
    ∀ (cs : List Char) (fuel : ℕ), cs.length ≤ fuel → decodeUpTo fuel (utf8Encode cs) = cs
  | [], fuel, _ => by cases fuel <;> rfl
  | c :: cs, fuel + 1, h => by
    obtain ⟨b, bs, hbytes, hdecode⟩ := exists_decodeChar c (utf8Encode cs)
    have hcons : utf8Encode (c :: cs) = b :: bs := by
      rw [← hbytes, utf8Encode, List.flatMap_cons]
      rfl
    rw [hcons, decodeUpTo, hdecode]
    exact congrArg (c :: ·)
      (decodeUpTo_utf8Encode cs fuel (Nat.le_of_succ_le_succ h))

lemma utf8Decode_utf8Encode (cs : List Char) : utf8Decode (utf8Encode cs) = cs := by
  refine decodeUpTo_utf8Encode cs _ ?_
  induction cs with
  | nil => exact Nat.le_refl _
  | cons c cs ih =>
    obtain ⟨b, bs, hbytes, -⟩ := exists_decodeChar c []
    have hlen := congrArg List.length hbytes
    rw [List.append_nil, List.length_cons] at hlen
    rw [utf8Encode, List.flatMap_cons, List.length_append, List.length_cons]
    rw [utf8Encode] at ih
    omega

/-! ## Escapes -/

/-- The value of a hexadecimal digit. -/
def hexValue (c : Char) : Option ℕ :=
  let n := c.toNat
  if 0x30 ≤ n ∧ n ≤ 0x39 then some (n - 0x30)
  else if 0x41 ≤ n ∧ n ≤ 0x46 then some (n - 0x37)
  else if 0x61 ≤ n ∧ n ≤ 0x66 then some (n - 0x57)
  else none

/-- The bytes of a text with its escapes decoded, apart from those of bytes to `keep`. -/
def decodeBytes (keep : ℕ → Bool) : List Char → List ℕ
  | '%' :: a :: b :: rest =>
    match hexValue a, hexValue b with
    | some x, some y =>
      if keep (x * 16 + y) then 0x25 :: decodeBytes keep (a :: b :: rest)
      else (x * 16 + y) :: decodeBytes keep rest
    | _, _ => 0x25 :: decodeBytes keep (a :: b :: rest)
  | c :: rest => encodeChar c ++ decodeBytes keep rest
  | [] => []

/-- The text with its escapes decoded, apart from those of bytes to `keep`. -/
def decode (keep : ℕ → Bool) (s : String) : String :=
  String.ofList (utf8Decode (decodeBytes keep s.toList))

lemma decodeBytes_of_notMem (keep : ℕ → Bool) :
    ∀ cs : List Char, '%' ∉ cs → decodeBytes keep cs = utf8Encode cs
  | [], _ => rfl
  | c :: cs, h => by
    have hc : c ≠ '%' := fun heq => h (heq ▸ List.mem_cons_self)
    have hcs := decodeBytes_of_notMem keep cs fun hmem => h (List.mem_cons_of_mem c hmem)
    have hstep : decodeBytes keep (c :: cs) = encodeChar c ++ decodeBytes keep cs := by
      rw [decodeBytes]
      rintro a b rest heq
      exact absurd heq hc
    rw [hstep, hcs, utf8Encode, utf8Encode, List.flatMap_cons]

lemma decode_of_notMem (keep : ℕ → Bool) {s : String} (h : '%' ∉ s.toList) : decode keep s = s := by
  rw [decode, decodeBytes_of_notMem keep _ h, utf8Decode_utf8Encode, String.ofList_toList]

/-- Text of a form: a plus sign stands for a space. -/
def formDecode (s : String) : String :=
  decode (fun _ => false) (String.ofList (s.toList.map fun c => if c = '+' then ' ' else c))

lemma formDecode_of_notMem {s : String} (hpercent : '%' ∉ s.toList) (hplus : '+' ∉ s.toList) :
    formDecode s = s := by
  have hmap : s.toList.map (fun c => if c = '+' then ' ' else c) = s.toList := by
    refine (List.map_congr_left fun c hc => if_neg ?_).trans (List.map_id' _)
    exact fun heq => hplus (heq ▸ hc)
  rw [formDecode, hmap, String.ofList_toList, decode_of_notMem _ hpercent]

example : decode (fun _ => false) "%73hips" = "ships" := by decide

end Tugboat.Percent
