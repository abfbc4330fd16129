-- Repetition of texts. A text times a count, in either order, is that many copies of it, and an
-- overflow exactly if these would be too long; the check is made on the exact length, which
-- words of 64 bits give as well, since they refuse a product that does not fit them.
import TemplateExpr.Proofs.Operation.Integers

namespace TemplateExpr

namespace Text

/-! ## Copies -/

theorem toList_copies (s : String) (count : Nat) :
    (copies s count).toList = (List.replicate count s.toList).flatten := by
  unfold copies
  split
  · rename_i hs
    simp [hs]
  · rw [String.toList_join, List.flatMap_replicate]

theorem copies_zero (s : String) : copies s 0 = "" := by
  apply String.toList_injective
  simp [toList_copies]

theorem copies_empty (count : Nat) : copies "" count = "" := rfl

theorem copies_add (s : String) (m n : Nat) : copies s (m + n) = copies s m ++ copies s n := by
  apply String.toList_injective
  rw [String.toList_append, toList_copies, toList_copies, toList_copies,
    ← List.replicate_append_replicate, List.flatten_append]

theorem copies_one (s : String) : copies s 1 = s := by
  apply String.toList_injective
  simp [toList_copies]

theorem utf8ByteSize_copies (s : String) (count : Nat) :
    (copies s count).utf8ByteSize = s.utf8ByteSize * count := by
  induction count with
  | zero =>
    rw [copies_zero]
    rfl
  | succ count ih =>
    rw [copies_add, copies_one, String.utf8ByteSize_append, ih, Nat.mul_succ]

/-! ## The check in words -/

/-- The product of two words, unless it does not fit in a word. -/
def product? (a b : UInt64) : Option UInt64 :=
  if a.toBitVec.umulOverflow b.toBitVec then none else some (a * b)

/-- The length of so many copies of a text, computed in words. -/
def wordLength? (length count : UInt64) : Option UInt64 :=
  (product? length count).filter fun total => total.toNat ≤ maxRepeatedLength

theorem overflows_iff (a b : UInt64) :
    a.toBitVec.umulOverflow b.toBitVec = true ↔ UInt64.size ≤ a.toNat * b.toNat := by
  simp [BitVec.umulOverflow, UInt64.size]

/-- Whatever is too long for a word is too long anyway. -/
theorem wordLength?_eq (length count : UInt64) :
    (wordLength? length count).map UInt64.toNat = repeatedLength? length.toNat count.toNat := by
  have hsize : UInt64.size = 18446744073709551616 := rfl
  unfold wordLength? product? repeatedLength? maxRepeatedLength
  by_cases hover : length.toBitVec.umulOverflow count.toBitVec = true
  · have hlong := (overflows_iff length count).1 hover
    rw [if_pos hover, if_neg (by omega)]
    rfl
  · have hshort := mt (overflows_iff length count).2 hover
    have hproduct : (length * count).toNat = length.toNat * count.toNat := by
      rw [UInt64.toNat_mul, Nat.mod_eq_of_lt (by omega)]
    rw [if_neg hover, Option.filter_some, hproduct]
    by_cases hfits : length.toNat * count.toNat ≤ 2147483647
    · simp [hfits, hproduct]
    · simp [hfits]

end Text

/-! ## Texts and counts -/

/-- An int or a long. -/
def Value.Counts (n : Int) (v : Value) : Prop :=
  (v.kind = .int ∨ v.kind = .long) ∧ v.integer? = some n

namespace Operation

variable {n : Int} {v l r : Value}

theorem count?_of_counts (hv : v.Counts n) : ∃ k : Int64, count? v = some k ∧ k.toInt = n := by
  obtain ⟨hkind | hkind, hn⟩ := hv
  · cases v <;> cases hkind
    cases hn
    exact ⟨_, rfl, Int32.toInt_toInt64 _⟩
  · cases v <;> cases hkind
    cases hn
    exact ⟨_, rfl, rfl⟩

variable (h : Heap) (pattern : String)

/-- A text times a count is so many copies of it, or too long. -/
theorem apply_text_times_count (o : Operation) (hop : o.op = .multiply) {s : String}
    (hv : v.Counts n) (hlr : l = .string s ∧ r = v ∨ l = v ∧ r = .string s) :
    o.apply (.standard h pattern) h l r =
      if (2147483647 : Int) < s.utf8ByteSize * max n 0 then .error o.overflow
      else .ok (.value (.string (Text.copies s n.toNat))) := by
  obtain ⟨k, hk, rfl⟩ := count?_of_counts hv
  have htext : HasText l r := by
    rcases hlr with ⟨rfl, _⟩ | ⟨_, rfl⟩
    · exact .inl rfl
    · exact .inr rfl
  have hcount : (l = .string s ∧ count? r = some k) ∨ (count? l = some k ∧ r = .string s) := by
    rcases hlr with ⟨hl, rfl⟩ | ⟨rfl, hr⟩
    · exact .inl ⟨hl, hk⟩
    · exact .inr ⟨hk, hr⟩
  have hrepeated := o.repeated_outcome h pattern hcount
  rw [o.apply_of_isCalculation _ h (by rw [hop]; rfl), o.calculate_of_hasText _ h htext]
  simp only [onStrings, hop]
  split <;> rename_i hlong
  · rw [if_pos hlong] at hrepeated
    rw [hrepeated]
    rfl
  · rw [if_neg hlong] at hrepeated
    rw [hrepeated]
    rfl

variable {h pattern}

/-- An operator on a text and a count, in either order. -/
theorem yields_copies {s : String} (hv : v.Counts n) (hfits : s.utf8ByteSize * max n 0 ≤ 2147483647)
    (hlr : l = .string s ∧ r = v ∨ l = v ∧ r = .string s) :
    Yields (.standard h pattern) h .multiply l r (.string (Text.copies s n.toNat)) := by
  intro o hop
  rw [o.apply_text_times_count h pattern hop hv hlr, if_neg (by omega)]

theorem overflows_copies {s : String} (hv : v.Counts n)
    (hlong : (2147483647 : Int) < s.utf8ByteSize * max n 0)
    (hlr : l = .string s ∧ r = v ∨ l = v ∧ r = .string s) :
    Overflows (.standard h pattern) h .multiply l r := by
  intro o hop
  rw [o.apply_text_times_count h pattern hop hv hlr, if_pos hlong]

theorem yields_join (s t : String) :
    Yields (.standard h pattern) h .add (.string s) (.string t) (.string (s ++ t)) := by
  have htext : HasText (.string s) (.string t) := .inl rfl
  have hjoin := yields_texts h pattern htext
  rwa [text_string, text_string] at hjoin

/-! ## The law -/

section

variable (c : Coercions) (h : Heap)

/-- What a text and a count give, in either order. -/
structure Repeats (s : String) (v : Value) (n : Int) : Prop where
  either_order : ∀ o : Operation, o.op = .multiply →
    o.apply c h v (.string s) = o.apply c h (.string s) v
  overflows : Overflows c h .multiply (.string s) v ↔
    (2147483647 : Int) < s.utf8ByteSize * max n 0
  copied : s.utf8ByteSize * max n 0 ≤ 2147483647 →
    ∃ t : String, Yields c h .multiply (.string s) v (.string t) ∧
      t.toList = (List.replicate (max n 0).toNat s.toList).flatten ∧
      t.utf8ByteSize = s.utf8ByteSize * max n 0

/-- Joining the copies that two counts make gives as many as the sum of the counts does. Joined
texts may have any length, but copies made at once may be too long. -/
def Distributes (s : String) (v w : Value) (m n : Int) : Prop :=
  ∃ (sum : Value) (first second both : String), Yields c h .add v w sum ∧
    Yields c h .multiply (.string s) v (.string first) ∧
    Yields c h .multiply (.string s) w (.string second) ∧
    Yields c h .add (.string first) (.string second) (.string both) ∧
    if s.utf8ByteSize * (m + n) ≤ 2147483647 then
      Yields c h .multiply (.string s) sum (.string both)
    else Overflows c h .multiply (.string s) sum

end

variable (h pattern)

theorem repeats_of_counts (s : String) (hv : v.Counts n) :
    Repeats (.standard h pattern) h s v n := by
  refine ⟨?_, ⟨?_, fun hlong => overflows_copies hv hlong (.inl ⟨rfl, rfl⟩)⟩, ?_⟩
  · intro o hop
    rw [o.apply_text_times_count h pattern hop hv (.inl ⟨rfl, rfl⟩),
      o.apply_text_times_count h pattern hop hv (.inr ⟨rfl, rfl⟩)]
  · intro hover
    rcases Int.lt_or_le 2147483647 (s.utf8ByteSize * max n 0) with hlong | hfits
    · exact hlong
    · exact absurd hover (yields_copies hv hfits (.inl ⟨rfl, rfl⟩)).not_overflows
  · intro hfits
    have htoNat : (max n 0).toNat = n.toNat := by omega
    refine ⟨_, yields_copies hv hfits (.inl ⟨rfl, rfl⟩), ?_, ?_⟩
    · rw [htoNat, Text.toList_copies]
    · rw [Text.utf8ByteSize_copies, Int.natCast_mul, Int.ofNat_toNat]

theorem distributes_of_counts (s : String) {w : Value} {m : Int} (hv : v.Counts m)
    (hw : w.Counts n) (hm : 0 ≤ m) (hn : 0 ≤ n) (hsum : (Kind.common v.kind w.kind).Fits (m + n))
    (hfirst : s.utf8ByteSize * m ≤ 2147483647) (hsecond : s.utf8ByteSize * n ≤ 2147483647) :
    Distributes (.standard h pattern) h s v w m n := by
  have hnot : v.kind ≠ .bool ∨ w.kind ≠ .bool := by
    rcases hv.1 with hkind | hkind <;> rw [hkind] <;> exact .inl nofun
  obtain ⟨sum, hwhole, hadd⟩ := exists_yields .add rfl hv.2 hw.2 hnot rfl nofun hsum h
    pattern
  have hcounts : sum.Counts (m + n) := ⟨hwhole.1 ▸ Kind.common_cases _ _, hwhole.2⟩
  have hboth : Text.copies s m.toNat ++ Text.copies s n.toNat = Text.copies s (m + n).toNat := by
    rw [Int.toNat_add hm hn, Text.copies_add]
  refine ⟨sum, _, _, _, hadd, yields_copies hv ?_ (.inl ⟨rfl, rfl⟩),
    yields_copies hw ?_ (.inl ⟨rfl, rfl⟩), yields_join _ _, ?_⟩
  · rwa [Int.max_eq_left hm]
  · rwa [Int.max_eq_left hn]
  · have hmax : max (m + n) 0 = m + n := Int.max_eq_left (by omega)
    rw [hboth]
    split
    · exact yields_copies hcounts (by rwa [hmax]) (.inl ⟨rfl, rfl⟩)
    · exact overflows_copies hcounts (by rw [hmax]; omega) (.inl ⟨rfl, rfl⟩)

/-- The laws of repetition. -/
structure RepeatsTexts : Prop where
  /-- In words of 64 bits the check comes to the same as on the exact length. -/
  checked : ∀ length count : UInt64, (Text.wordLength? length count).map UInt64.toNat =
    Text.repeatedLength? length.toNat count.toNat
  repeats : ∀ (s : String) (v : Value) (n : Int), v.Counts n →
    Repeats (.standard h pattern) h s v n
  distributes : ∀ (s : String) (v w : Value) (m n : Int), v.Counts m → w.Counts n →
    0 ≤ m → 0 ≤ n → (Kind.common v.kind w.kind).Fits (m + n) →
    s.utf8ByteSize * m ≤ 2147483647 → s.utf8ByteSize * n ≤ 2147483647 →
    Distributes (.standard h pattern) h s v w m n
  empty : ∀ (v : Value) (n : Int), v.Counts n →
    Yields (.standard h pattern) h .multiply (.string "") v (.string "")

/-- A text times a count is exactly so many copies of it, and an overflow exactly if these are
longer than texts that are repeated may be. -/
theorem a_text_is_repeated_exactly : RepeatsTexts h pattern := by
  refine ⟨Text.wordLength?_eq, fun s v n => repeats_of_counts h pattern s,
    fun s v w m n => distributes_of_counts h pattern s, ?_⟩
  intro v n hv
  have hempty : Yields (.standard h pattern) h .multiply (.string "") v
      (.string (Text.copies "" n.toNat)) := yields_copies hv (by simp) (.inl ⟨rfl, rfl⟩)
  rwa [Text.copies_empty] at hempty

end Operation

end TemplateExpr
