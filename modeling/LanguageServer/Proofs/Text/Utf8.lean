import LanguageServer.Text.Utf8

/-!
# Texts are read back from their bytes

`Text.ofUtf8` undoes `Text.utf8` and reads nothing else (`ofUtf8_eq_ok_iff`), and the byte of a line
feed stands for a line feed only.
-/

namespace LanguageServer.Text

/-- A number below 256 is a byte. -/
private theorem toNat_ofNat_of_lt {n : Nat} (h : n < 256) : (UInt8.ofNat n).toNat = n := by
  rw [UInt8.toNat_ofNat']; omega

/-- The first byte of a character of one byte. -/
private theorem leading?_one {b : UInt8} (h : b.toNat < 0x80) :
    leading? b = some (1, b.toNat, 0, 0) := by
  simp only [leading?]
  rw [if_pos h]

/-- The first byte of a character of two bytes. -/
private theorem leading?_two {b : UInt8} {n : Nat} (h : b.toNat = n + 0xC0) (hl : 2 ≤ n)
    (hu : n < 32) : leading? b = some (2, n, 0x80, 0xBF) := by
  simp only [leading?, h]
  rw [if_neg (by omega), if_pos (by omega), Nat.add_sub_cancel]

/-- The first byte of a character of three bytes; what may follow it depends on it. -/
private theorem leading?_three {b : UInt8} {n : Nat} (h : b.toNat = n + 0xE0) (hu : n < 16) :
    leading? b = some (3, n, if n = 0 then 0xA0 else 0x80, if n = 13 then 0x9F else 0xBF) := by
  simp only [leading?, h]
  rw [if_neg (by omega), if_neg (by omega)]
  by_cases h0 : n = 0
  · subst h0; rfl
  by_cases h13 : n = 13
  · subst h13; rfl
  rw [if_neg (by omega), if_neg (by omega), if_pos (by omega), if_neg h0, if_neg h13,
    Nat.add_sub_cancel]

/-- The first byte of a character of four bytes; what may follow it depends on it. -/
private theorem leading?_four {b : UInt8} {n : Nat} (h : b.toNat = n + 0xF0) (hu : n < 5) :
    leading? b = some (4, n, if n = 0 then 0x90 else 0x80, if n = 4 then 0x8F else 0xBF) := by
  simp only [leading?, h]
  rw [if_neg (by omega), if_neg (by omega), if_neg (by omega), if_neg (by omega),
    if_neg (by omega)]
  by_cases h0 : n = 0
  · subst h0; rfl
  by_cases h4 : n = 4
  · subst h4; rfl
  rw [if_neg (by omega), if_pos (by omega), if_neg h0, if_neg h4, Nat.add_sub_cancel]

/-- A byte that follows holds six bits. -/
private theorem continuation?_ofNat {n : Nat} (h : n < 64) :
    continuation? (UInt8.ofNat (n + 0x80)) = some n := by
  simp only [continuation?, toNat_ofNat_of_lt (show n + 0x80 < 256 by omega)]
  rw [if_pos (by omega), Nat.add_sub_cancel]

/-- Every character is read back from its bytes, whatever follows them. -/
theorem firstChar_utf8EncodeChar (c : Char) (rest : List UInt8) :
    ∃ b bytes, String.utf8EncodeChar c = b :: bytes ∧
      firstChar b (bytes ++ rest) = .ok (c, rest) := by
  have hc : Char.ofNat c.toNat = c := Char.ofNat_toNat c
  have hv : c.toNat < 0xD800 ∨ (0xDFFF < c.toNat ∧ c.toNat < 0x110000) := c.valid
  simp only [String.utf8EncodeChar, show c.val.toNat = c.toNat from rfl]
  generalize c.toNat = n at hc hv
  split
  · -- One byte carries all bits.
    have hb : (UInt8.ofNat n).toNat = n := toNat_ofNat_of_lt (by omega)
    refine ⟨_, _, rfl, ?_⟩
    simp only [firstChar, leading?_one (show (UInt8.ofNat n).toNat < 0x80 by omega), hb, hc,
      List.nil_append]
  split
  · -- Two bytes: five bits and six.
    have hb := toNat_ofNat_of_lt (show n / 64 % 32 + 0xC0 < 256 by omega)
    have hb' := toNat_ofNat_of_lt (show n % 64 + 0x80 < 256 by omega)
    refine ⟨_, _, rfl, ?_⟩
    simp only [firstChar, leading?_two hb (by omega) (by omega), List.cons_append, hb']
    rw [if_pos (by omega), Nat.sub_self, tail, Nat.add_sub_cancel,
      show n / 64 % 32 * 64 + n % 64 = n by omega, Except.map, hc, List.nil_append]
  split
  · -- Three bytes; the second one is limited, so that there are no surrogates and no long forms.
    have hb := toNat_ofNat_of_lt (show n / 4096 % 16 + 0xE0 < 256 by omega)
    have hb' := toNat_ofNat_of_lt (show n / 64 % 64 + 0x80 < 256 by omega)
    have hlow : (if n / 4096 % 16 = 0 then 0xA0 else 0x80) ≤ n / 64 % 64 + 0x80 := by
      split <;> omega
    have hhigh : n / 64 % 64 + 0x80 ≤ (if n / 4096 % 16 = 13 then 0x9F else 0xBF) := by
      split <;> omega
    refine ⟨_, _, rfl, ?_⟩
    simp only [firstChar, leading?_three hb (by omega), List.cons_append, hb']
    rw [if_pos ⟨hlow, hhigh⟩]
    simp only [Nat.reduceSub, tail, continuation?_ofNat (show n % 64 < 64 by omega),
      Nat.add_sub_cancel, Except.map, List.nil_append]
    rw [show (n / 4096 % 16 * 64 + n / 64 % 64) * 64 + n % 64 = n by omega, hc]
  · -- Four bytes; the second one is limited, so that no character is too large or has a long form.
    have hb := toNat_ofNat_of_lt (show n / 262144 % 8 + 0xF0 < 256 by omega)
    have hb' := toNat_ofNat_of_lt (show n / 4096 % 64 + 0x80 < 256 by omega)
    have hlow : (if n / 262144 % 8 = 0 then 0x90 else 0x80) ≤ n / 4096 % 64 + 0x80 := by
      split <;> omega
    have hhigh : n / 4096 % 64 + 0x80 ≤ (if n / 262144 % 8 = 4 then 0x8F else 0xBF) := by
      split <;> omega
    refine ⟨_, _, rfl, ?_⟩
    simp only [firstChar, leading?_four hb (by omega), List.cons_append, hb']
    rw [if_pos ⟨hlow, hhigh⟩]
    simp only [Nat.reduceSub, tail, continuation?_ofNat (show n / 64 % 64 < 64 by omega),
      continuation?_ofNat (show n % 64 < 64 by omega), Nat.add_sub_cancel, Except.map,
      List.nil_append]
    rw [show ((n / 262144 % 8 * 64 + n / 4096 % 64) * 64 + n / 64 % 64) * 64 + n % 64 = n by omega,
      hc]

/-- Characters are read back from their bytes, given a unit of fuel for each byte. -/
private theorem charsOfUtf8_utf8OfChars (cs : List Char) (fuel valid : Nat)
    (h : (utf8OfChars cs).length ≤ fuel) : charsOfUtf8 fuel valid (utf8OfChars cs) = .ok cs := by
  induction cs generalizing fuel valid with
  | nil => cases fuel <;> rfl
  | cons c cs ih =>
    -- The first character is read back, and the fuel lasts for the rest.
    obtain ⟨b, bytes, hb, hc⟩ := firstChar_utf8EncodeChar c (utf8OfChars cs)
    have hcs : utf8OfChars (c :: cs) = b :: (bytes ++ utf8OfChars cs) := by
      simp [utf8OfChars, hb]
    rw [hcs] at h ⊢
    cases fuel with
    | zero => simp at h
    | succ fuel =>
      simp only [List.length_cons, List.length_append] at h
      simp only [charsOfUtf8, hc]
      rw [ih fuel _ (by omega)]
      rfl

/-- A text is read back from its bytes. -/
theorem ofUtf8_utf8 (s : String) : ofUtf8 (utf8 s) = .ok s := by
  simp only [ofUtf8, utf8]
  rw [charsOfUtf8_utf8OfChars _ _ _ (Nat.le_refl _)]
  simp [Except.map]

/-- What a first byte announces. -/
private theorem leading?_cases {b : UInt8} {width n low high : Nat}
    (h : leading? b = some (width, n, low, high)) :
    (width = 1 ∧ b.toNat = n ∧ n < 0x80) ∨
    (width = 2 ∧ b.toNat = n + 0xC0 ∧ 2 ≤ n ∧ n < 32 ∧ 0x80 ≤ low ∧ high ≤ 0xBF) ∨
    (width = 3 ∧ b.toNat = n + 0xE0 ∧ n < 16 ∧ 0x80 ≤ low ∧ high ≤ 0xBF ∧
      (n = 0 → 0xA0 ≤ low) ∧ (n = 13 → high ≤ 0x9F)) ∨
    (width = 4 ∧ b.toNat = n + 0xF0 ∧ n < 5 ∧ 0x80 ≤ low ∧ high ≤ 0xBF ∧
      (n = 0 → 0x90 ≤ low) ∧ (n = 4 → high ≤ 0x8F)) := by
  simp only [leading?] at h
  generalize b.toNat = v at h ⊢
  -- One branch of the table for each range of leading bytes.
  repeat' split at h
  all_goals
    simp only [Option.some.injEq, Prod.mk.injEq, reduceCtorEq] at h
  all_goals omega

/-- A byte is the byte of its number. -/
private theorem eq_ofNat {b : UInt8} {n : Nat} (h : b.toNat = n) : b = UInt8.ofNat n :=
  UInt8.toNat_inj.1 (by rw [h, toNat_ofNat_of_lt (h ▸ b.toNat_lt)])

/-- A byte after the first one carries six bits. -/
private theorem eq_of_continuation? {b : UInt8} {n : Nat} (h : continuation? b = some n) :
    b = UInt8.ofNat (n + 0x80) ∧ n < 64 := by
  simp only [continuation?] at h
  split at h
  · rw [Option.some.injEq] at h
    exact ⟨eq_ofNat (by omega), by omega⟩
  · cases h

/-- Of the bytes that follow, the next one holds six bits, and the others follow it. -/
private theorem exists_of_tail_succ {seen left bits : Nat} {rest : List UInt8}
    {r : Nat × List UInt8} (h : tail seen (left + 1) bits rest = .ok r) :
    ∃ n behind, n < 64 ∧ rest = UInt8.ofNat (n + 0x80) :: behind ∧
      tail (seen + 1) left (bits * 64 + n) behind = .ok r := by
  cases rest with
  | nil => cases h
  | cons b behind =>
    simp only [tail] at h
    split at h
    · rename_i n hb
      obtain ⟨rfl, hn⟩ := eq_of_continuation? hb
      exact ⟨n, behind, hn, rfl, h⟩
    · cases h

/-- The number of a character is the one that it is made of. -/
private theorem toNat_val_ofNat {n : Nat} (h : n < 0xD800 ∨ (0xDFFF < n ∧ n < 0x110000)) :
    (Char.ofNat n).val.toNat = n := by
  rw [Char.ofNat, dif_pos h]
  rfl

/-- A character that is read is written by the bytes it was read from. -/
theorem utf8EncodeChar_of_firstChar {b : UInt8} {rest behind : List UInt8} {c : Char}
    (h : firstChar b rest = .ok (c, behind)) :
    b :: rest = String.utf8EncodeChar c ++ behind := by
  simp only [firstChar] at h
  split at h
  · cases h
  · rename_i n low high hl
    obtain ⟨rfl, rfl⟩ : Char.ofNat n = c ∧ rest = behind := by simpa using h
    have hn : b.toNat = n ∧ n < 0x80 := by
      have := leading?_cases hl
      omega
    rw [eq_ofNat hn.1, String.utf8EncodeChar, toNat_val_ofNat (by omega), if_pos (by omega)]
    rfl
  · rename_i width n low high hne hl
    cases rest with
    | nil => cases h
    | cons d rest =>
      simp only at h
      split at h
      · rename_i hd
        cases ht : tail 2 (width - 2) (n * 64 + (d.toNat - 0x80)) rest with
        | error e => rw [ht] at h; cases h
        | ok p =>
          obtain ⟨N, behind'⟩ := p
          rw [ht] at h
          obtain ⟨rfl, rfl⟩ : Char.ofNat N = c ∧ behind' = behind := by simpa [Except.map] using h
          obtain ⟨rfl, -⟩ | ⟨rfl, hb, hn⟩ | ⟨rfl, hb, hn⟩ | ⟨rfl, hb, hn⟩ := leading?_cases hl
          · exact absurd rfl hne
          · -- Two bytes: five bits and six.
            obtain ⟨hN, rfl⟩ : n * 64 + (d.toNat - 128) = N ∧ rest = behind' := by
              simpa [tail] using ht
            rw [String.utf8EncodeChar, toNat_val_ofNat (by omega), if_neg (by omega),
              if_pos (by omega), eq_ofNat (n := N / 64 % 32 + 0xC0) (b := b) (by omega),
              eq_ofNat (n := N % 64 + 0x80) (b := d) (by omega)]
            rfl
          · -- Three bytes.
            obtain ⟨m, behind, hm, rfl, h₁⟩ := exists_of_tail_succ ht
            obtain ⟨hN, rfl⟩ : (n * 64 + (d.toNat - 128)) * 64 + m = N ∧ behind = behind' := by
              simpa [tail] using h₁
            rw [String.utf8EncodeChar, toNat_val_ofNat (by omega), if_neg (by omega),
              if_neg (by omega), if_pos (by omega),
              eq_ofNat (n := N / 4096 % 16 + 0xE0) (b := b) (by omega),
              eq_ofNat (n := N / 64 % 64 + 0x80) (b := d) (by omega),
              show m = N % 64 by omega]
            rfl
          · -- Four bytes.
            obtain ⟨m, behind, hm, rfl, h₁⟩ := exists_of_tail_succ ht
            obtain ⟨m', behind, hm', rfl, h₂⟩ := exists_of_tail_succ h₁
            obtain ⟨hN, rfl⟩ : ((n * 64 + (d.toNat - 128)) * 64 + m) * 64 + m' = N ∧
                behind = behind' := by
              simpa [tail] using h₂
            rw [String.utf8EncodeChar, toNat_val_ofNat (by omega), if_neg (by omega),
              if_neg (by omega), if_neg (by omega),
              eq_ofNat (n := N / 262144 % 8 + 0xF0) (b := b) (by omega),
              eq_ofNat (n := N / 4096 % 64 + 0x80) (b := d) (by omega),
              show m = N / 64 % 64 by omega, show m' = N % 64 by omega]
            rfl
      · cases h

/-- Characters that are read are written by the bytes they were read from. -/
private theorem utf8OfChars_of_charsOfUtf8 {fuel valid : Nat} {bytes : List UInt8} {cs : List Char}
    (h : charsOfUtf8 fuel valid bytes = .ok cs) : bytes = utf8OfChars cs := by
  induction fuel generalizing valid bytes cs with
  | zero =>
    cases bytes with
    | nil => cases h; rfl
    | cons b rest => cases h
  | succ fuel ih =>
    cases bytes with
    | nil => cases h; rfl
    | cons b rest =>
      simp only [charsOfUtf8] at h
      split at h
      · cases h
      · rename_i c behind hc
        -- The bytes of the first character are its own, and the rest stand for the other ones.
        cases hcs : charsOfUtf8 fuel (valid + c.utf8Size) behind with
        | error e => rw [hcs] at h; cases h
        | ok cs' =>
          rw [hcs] at h
          cases h
          rw [utf8EncodeChar_of_firstChar hc, ih hcs]
          rfl

/-- Bytes are read as a text exactly when they are the bytes of the text. -/
theorem ofUtf8_eq_ok_iff {bytes : List UInt8} {s : String} :
    ofUtf8 bytes = .ok s ↔ bytes = utf8 s := by
  refine ⟨fun h => ?_, fun h => h ▸ ofUtf8_utf8 s⟩
  cases hcs : charsOfUtf8 bytes.length 0 bytes with
  | error e => rw [ofUtf8, hcs] at h; cases h
  | ok cs =>
    rw [ofUtf8, hcs] at h
    cases h
    rw [utf8, String.toList_ofList]
    exact utf8OfChars_of_charsOfUtf8 hcs

/-- Beyond ASCII, every byte of a character has its highest bit set. -/
private theorem le_of_mem_utf8EncodeChar {c : Char} {b : UInt8} (hc : 0x80 ≤ c.toNat)
    (h : b ∈ String.utf8EncodeChar c) : 0x80 ≤ b.toNat := by
  simp only [String.utf8EncodeChar, show c.val.toNat = c.toNat from rfl] at h
  have hv : c.toNat < 0xD800 ∨ (0xDFFF < c.toNat ∧ c.toNat < 0x110000) := c.valid
  generalize c.toNat = n at hc hv h
  -- Each byte of a longer character has its highest bit set.
  have hb (k : Nat) (hl : 0x80 ≤ k) (hu : k < 256) : 0x80 ≤ (UInt8.ofNat k).toNat := by
    rwa [toNat_ofNat_of_lt hu]
  split at h
  · omega
  split at h
  · simp only [List.mem_cons, List.not_mem_nil, or_false] at h
    rcases h with rfl | rfl <;> exact hb _ (by omega) (by omega)
  split at h
  · simp only [List.mem_cons, List.not_mem_nil, or_false] at h
    rcases h with rfl | rfl | rfl <;> exact hb _ (by omega) (by omega)
  · simp only [List.mem_cons, List.not_mem_nil, or_false] at h
    rcases h with rfl | rfl | rfl | rfl <;> exact hb _ (by omega) (by omega)

/-- The byte of a line feed belongs to no other character. -/
theorem lineFeed_mem_utf8EncodeChar {c : Char} (h : 10 ∈ String.utf8EncodeChar c) :
    c = '\n' := by
  have hlt : c.toNat < 0x80 := by
    -- A line feed has its highest bit clear.
    refine Nat.lt_of_not_le fun hc => ?_
    have := le_of_mem_utf8EncodeChar hc h
    exact absurd this (by decide)
  simp only [String.utf8EncodeChar, show c.val.toNat = c.toNat from rfl] at h
  rw [if_pos (by omega), List.mem_singleton, ← UInt8.toNat_inj,
    toNat_ofNat_of_lt (show c.toNat < 256 by omega)] at h
  exact Char.toNat_inj.1 h.symm

/-- Only a line feed is written as one. -/
theorem lineFeed_mem_utf8 {s : String} (h : 10 ∈ utf8 s) : '\n' ∈ s.toList := by
  obtain ⟨c, hc, hb⟩ := List.mem_flatMap.1 h
  rwa [← lineFeed_mem_utf8EncodeChar hb]

/-- A line feed in a text is a byte of its own. -/
theorem mem_utf8_of_lineFeed {s : String} (h : '\n' ∈ s.toList) : 10 ∈ utf8 s :=
  List.mem_flatMap.2 ⟨'\n', h, by decide⟩

end LanguageServer.Text
