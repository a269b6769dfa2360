import AnchorAudit.Text.Encoding
import Mathlib.Tactic.SplitIfs

/-! UTF-8 is read back as it was written, whatever follows it. The octet of a line feed stands for
nothing but a line feed, so lines can be counted among octets. Only a lone surrogate has no octets. -/
namespace AnchorAudit.Utf8

theorem octet_toNat {n : Nat} (h : n < 256) : (UInt8.ofNat n).toNat = n := by
  rw [UInt8.toNat_ofNat', Nat.mod_eq_of_lt h]

theorem tails_cons {lo hi n : Nat} (value taken owed : Nat) (rest : List UInt8)
    (hn : n < 256) (hlo : lo ≤ n) (hhi : n ≤ hi) :
    tails lo hi value taken (owed + 1) (.ofNat n :: rest) =
      tails 0x80 0xBF (value * 64 + (n - 0x80)) (taken + 1) owed rest := by
  have hb := octet_toNat hn
  simp only [tails, hb, hlo, hhi, and_self, if_true]

/-- The octets of a character begin that character and take up all of them. The ranges of the
second octet are where surrogates and overlong forms are kept out. -/
theorem first_encodeChar (c : Char) (rest : List UInt8) :
    ∃ b bs, encodeChar c = b :: bs ∧ first b (bs ++ rest) = .char c bs.length := by
  have hc : c.toNat < 0xD800 ∨ 0xDFFF < c.toNat ∧ c.toNat < 0x110000 := c.valid
  have hback := Char.ofNat_toNat c
  generalize hn : c.toNat = n at hc hback
  unfold encodeChar
  simp only [hn]
  by_cases h1 : n < 0x80
  · refine ⟨.ofNat n, [], by rw [if_pos h1], ?_⟩
    simp [first, octet_toNat (show n < 256 by omega), h1, hback]
  by_cases h2 : n < 0x800
  · refine ⟨_, _, by rw [if_neg h1, if_pos h2], ?_⟩
    have hb := octet_toNat (show 0xC0 + n / 64 < 256 by omega)
    simp only [first, hb, List.cons_append, List.nil_append, List.length_cons, List.length_nil]
    rw [if_neg (by omega), if_neg (by omega), if_pos (by omega),
      tails_cons _ _ _ _ (by omega) (by omega) (by omega), tails]
    rw [show (0xC0 + n / 64 - 0xC0) * 64 + (0x80 + n % 64 - 0x80) = n by omega, hback]
  by_cases h3 : n < 0x10000
  · refine ⟨_, _, by rw [if_neg h1, if_neg h2, if_pos h3], ?_⟩
    have hb := octet_toNat (show 0xE0 + n / 4096 < 256 by omega)
    simp only [first, hb, List.cons_append, List.nil_append, List.length_cons, List.length_nil]
    rw [if_neg (by omega), if_neg (by omega), if_neg (by omega), if_pos (by omega),
      tails_cons _ _ _ _ (by omega) (by split <;> omega) (by split <;> omega),
      tails_cons _ _ _ _ (by omega) (by omega) (by omega), tails]
    rw [show ((0xE0 + n / 4096 - 0xE0) * 64 + (0x80 + n / 64 % 64 - 0x80)) * 64 +
      (0x80 + n % 64 - 0x80) = n by omega, hback]
  · refine ⟨_, _, by rw [if_neg h1, if_neg h2, if_neg h3], ?_⟩
    have hb := octet_toNat (show 0xF0 + n / 262144 < 256 by omega)
    simp only [first, hb, List.cons_append, List.nil_append, List.length_cons, List.length_nil]
    rw [if_neg (by omega), if_neg (by omega), if_neg (by omega), if_neg (by omega),
      if_pos (by omega),
      tails_cons _ _ _ _ (by omega) (by split <;> omega) (by split <;> omega),
      tails_cons _ _ _ _ (by omega) (by omega) (by omega),
      tails_cons _ _ _ _ (by omega) (by omega) (by omega), tails]
    rw [show (((0xF0 + n / 262144 - 0xF0) * 64 + (0x80 + n / 4096 % 64 - 0x80)) * 64 +
      (0x80 + n / 64 % 64 - 0x80)) * 64 + (0x80 + n % 64 - 0x80) = n by omega, hback]

theorem chunks_skip (xs rest : List UInt8) : chunks xs.length (xs ++ rest) = chunks 0 rest := by
  induction xs with
  | nil => rfl
  | cons x xs ih => simpa only [List.length_cons, List.cons_append, chunks] using ih

@[simp] theorem encode_nil : encode [] = [] := rfl

@[simp] theorem encode_cons (c : Char) (cs : List Char) :
    encode (c :: cs) = encodeChar c ++ encode cs := by
  simp [encode]

@[simp] theorem encode_append (xs ys : List Char) : encode (xs ++ ys) = encode xs ++ encode ys := by
  simp [encode]

theorem decode_encode_append (cs : List Char) (rest : List UInt8) :
    decode (encode cs ++ rest) = cs ++ decode rest := by
  induction cs with
  | nil => rfl
  | cons c cs ih =>
    obtain ⟨b, bs, hc, hf⟩ := first_encodeChar c (encode cs ++ rest)
    have hchunks : chunks 0 (encode (c :: cs) ++ rest) =
        .char c bs.length :: chunks 0 (encode cs ++ rest) := by
      rw [encode_cons, hc, List.cons_append, List.cons_append, List.append_assoc, chunks, hf]
      simp only [Chunk.size, Nat.add_sub_cancel, chunks_skip]
    unfold decode at ih ⊢
    rw [hchunks, List.map_cons, ih]
    rfl

@[simp] theorem decode_encode (cs : List Char) : decode (encode cs) = cs := by
  have h := decode_encode_append cs []
  rw [List.append_nil] at h
  rw [h]
  exact List.append_nil cs

theorem length_encodeChar_pos (c : Char) : 0 < (encodeChar c).length := by
  obtain ⟨b, bs, hc, -⟩ := first_encodeChar c []
  rw [hc]
  exact Nat.succ_pos _

theorem encodeChar_newline : encodeChar '\n' = [10] := rfl

theorem newline_ne_octet {n : Nat} (hn : n < 256) (h10 : n ≠ 10) : (10 : UInt8) ≠ .ofNat n := by
  intro he
  have := congrArg UInt8.toNat he
  rw [octet_toNat hn] at this
  exact h10 this.symm

theorem newline_not_mem_encodeChar {c : Char} (hc : c ≠ '\n') : 10 ∉ encodeChar c := by
  have hn : c.toNat ≠ 10 := fun h => hc (by rw [← Char.ofNat_toNat c, h])
  have hlt : c.toNat < 0xD800 ∨ 0xDFFF < c.toNat ∧ c.toNat < 0x110000 := c.valid
  unfold encodeChar
  dsimp only
  split_ifs <;> simp only [List.mem_cons, List.not_mem_nil, or_false, not_or]
  · exact newline_ne_octet (by omega) hn
  · exact ⟨newline_ne_octet (by omega) (by omega), newline_ne_octet (by omega) (by omega)⟩
  · exact ⟨newline_ne_octet (by omega) (by omega), newline_ne_octet (by omega) (by omega),
      newline_ne_octet (by omega) (by omega)⟩
  · exact ⟨newline_ne_octet (by omega) (by omega), newline_ne_octet (by omega) (by omega),
      newline_ne_octet (by omega) (by omega), newline_ne_octet (by omega) (by omega)⟩

theorem newline_not_mem_encode {cs : List Char} (h : '\n' ∉ cs) : 10 ∉ encode cs := by
  intro hmem
  obtain ⟨c, hc, h10⟩ := List.mem_flatMap.mp hmem
  exact newline_not_mem_encodeChar (fun he => h (he ▸ hc)) h10

theorem count_newline_encode (cs : List Char) : (encode cs).count 10 = cs.count '\n' := by
  induction cs with
  | nil => rfl
  | cons c cs ih =>
    rw [encode_cons, List.count_append, ih]
    by_cases hc : c = '\n'
    · subst hc
      rw [encodeChar_newline, List.count_cons_self, List.count_cons_self]
      simp only [List.count_nil]
      omega
    · rw [List.count_eq_zero.mpr (newline_not_mem_encodeChar hc), List.count_cons_of_ne hc]
      omega

/-- An offset between two characters of a text, at its start or at its end. -/
def IsBoundary (cs : List Char) (offset : Nat) : Prop :=
  ∃ front, front <+: cs ∧ (encode front).length = offset

theorem eq_of_prefix_of_length_encode_le {xs ys : List Char} (h : xs <+: ys)
    (hlen : (encode ys).length ≤ (encode xs).length) : xs = ys := by
  obtain ⟨zs, rfl⟩ := h
  cases zs with
  | nil => exact (List.append_nil xs).symm
  | cons z zs =>
    have := length_encodeChar_pos z
    simp only [encode_append, encode_cons, List.length_append] at hlen
    omega

/-- Two boundaries in order cut a text into three. -/
theorem IsBoundary.cut {cs : List Char} {start stop : Nat} (hstart : IsBoundary cs start)
    (hstop : IsBoundary cs stop) (hle : start ≤ stop) :
    ∃ front mid rest, cs = front ++ mid ++ rest ∧ (encode front).length = start ∧
      (encode (front ++ mid)).length = stop := by
  obtain ⟨xs, hxs, rfl⟩ := hstart
  obtain ⟨ys, hys, rfl⟩ := hstop
  have hxy : xs <+: ys := by
    rcases List.prefix_or_prefix_of_prefix hxs hys with h | h
    · exact h
    · obtain rfl := eq_of_prefix_of_length_encode_le h hle
      exact List.prefix_rfl
  obtain ⟨mid, rfl⟩ := hxy
  obtain ⟨rest, rfl⟩ := hys
  exact ⟨xs, mid, rest, rfl, rfl, rfl⟩

end AnchorAudit.Utf8

namespace AnchorAudit.Text.Points

@[simp] theorem isText_ofString (s : String) : (ofString s).isText = true := by
  simp [isText, ofString, Point.isChar]

@[simp] theorem text_ofString (s : String) : (ofString s).text = s := by
  have hshown : Point.shown ∘ Point.char = id := rfl
  rw [text, ofString, List.map_map, hshown, List.map_id, String.ofList_toList]

theorem text?_ofString (s : String) : (ofString s).text? = some s := by
  rw [text?, isText_ofString, if_pos rfl, text_ofString]

theorem ofString_inj {s t : String} : ofString s = ofString t ↔ s = t := by
  constructor
  · intro h
    rw [← text_ofString s, h, text_ofString]
  · intro h
    rw [h]

@[simp] theorem beq_ofString (s t : String) : (ofString s == ofString t) = (s == t) := by
  rw [Bool.eq_iff_iff, beq_iff_eq, beq_iff_eq, ofString_inj]

end AnchorAudit.Text.Points
