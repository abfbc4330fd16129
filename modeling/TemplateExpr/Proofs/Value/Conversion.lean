-- Conversion of values to kinds: which values convert to which kinds, and what they become. A
-- number goes to the nearest number of the kind and is refused where that does not fit, a
-- text is read apart from blanks at its ends, and the text of a whole number is that number
-- again.
import TemplateExpr.Proofs.Binary.Narrowing
import TemplateExpr.Proofs.Decimal.Numeral
import TemplateExpr.Proofs.Heap.Nesting
import TemplateExpr.Proofs.Operation.Integers
import TemplateExpr.Value.Conversion

namespace TemplateExpr

open Pattern Text

/-- The whole numbers that a kind has without rounding. -/
def Kind.Holds (k : Kind) (n : ℤ) : Prop :=
  (k = .int ∨ k = .long) ∧ k.Fits n ∨ k = .float ∧ n.natAbs ≤ 2 ^ 24 ∨
    k = .double ∧ n.natAbs ≤ 2 ^ 53

namespace Value

/-! ## What is converted, and to what -/

/-- The whole number that a value has, is nearest to, or is a text of. -/
inductive HasWhole : Value → ℤ → Prop
  | integer {v n} : v.integer? = some n → HasWhole v n
  | float {x q n} : x.value? = some q → IsNearest q n → HasWhole (.float x) n
  | double {x q n} : x.value? = some q → IsNearest q n → HasWhole (.double x) n
  | string {s ds n} : Trimmed s.toList ds → Whole ds n → HasWhole (.string s) n

/-- The floating-point number that a value is rounded to, or is a text of. -/
inductive HasBinary {f : Binary.Format} : Value → Binary f → Prop
  | integer {v n} : v.integer? = some n → HasBinary v (.ofInt n)
  | float {x} : HasBinary (.float x) x.convert
  | double {x} : HasBinary (.double x) x.convert
  | string {s ds m} : Trimmed s.toList ds → Numeral.Written ds m →
      HasBinary (.string s) m.toBinary

/-- Whether a value is a number other than zero, or a text of the one word or of the other. -/
inductive HasTruth : Value → Bool → Prop
  | integer {v n b} : v.integer? = some n → (b = true ↔ n ≠ 0) → HasTruth v b
  | float {x b} : (b = true ↔ x.value? ≠ some 0) → HasTruth (.float x) b
  | double {x b} : (b = true ↔ x.value? ≠ some 0) → HasTruth (.double x) b
  | string {s ds b} : Trimmed s.toList ds → Spelled ds (if b then "true" else "false") →
      HasTruth (.string s) b

/-- What becomes of a value that changes its kind. -/
inductive Becomes : Value → Value → Prop
  | int {v n} : HasWhole v n.toInt → Becomes v (.int n)
  | long {v n} : HasWhole v n.toInt → Becomes v (.long n)
  | float {v x} : HasBinary v x → Becomes v (.float x)
  | double {v x} : HasBinary v x → Becomes v (.double x)
  | bool {v b} : HasTruth v b → Becomes v (.bool b)

/-- A text is one of a kind: a whole number that fits, a number, or one of the two words. -/
inductive ReadsAs : List Char → Kind → Prop
  | whole {ds n k} : Whole ds n → k = .int ∨ k = .long → k.Fits n → ReadsAs ds k
  | binary {ds m k} : Numeral.Written ds m → k = .float ∨ k = .double → ReadsAs ds k
  | bool {ds} : Spelled ds "true" ∨ Spelled ds "false" → ReadsAs ds .bool

/-- Integers, numbers with a fraction and texts are what converts, and the kinds of numbers and of
truth values are what they convert to. -/
inductive Accepts : Value → Kind → Prop
  /-- Only a long may be too wide for an int. -/
  | integer {v n k} : v.integer? = some n → k ∈ Kind.ladder →
      (v.kind = .long → k = .int → Kind.int.Fits n) → Accepts v k
  | float {x k} : k ∈ Kind.ladder → (k = .int ∨ k = .long →
      ∃ q n, x.value? = some q ∧ IsNearest q n ∧ k.Fits n) → Accepts (.float x) k
  | double {x k} : k ∈ Kind.ladder → (k = .int ∨ k = .long →
      ∃ q n, x.value? = some q ∧ IsNearest q n ∧ k.Fits n) → Accepts (.double x) k
  | string {s ds k} : Trimmed s.toList ds → ReadsAs ds k → Accepts (.string s) k

/-- The value is this whole number and no other. -/
inductive IsExactly : Value → ℤ → Prop
  | integer {v n} : v.integer? = some n → IsExactly v n
  | float {x n} : x.Is n → IsExactly (.float x) n
  | double {x n} : x.Is n → IsExactly (.double x) n

variable {v w : Value} {k target : Kind} {n : ℤ}

/-! ## What a value becomes -/

/-- Words are read off a value as whole numbers are, if doubles are rounded to them. -/
theorem word?_eq_some_iff {α : Type} {round? : Double → Option α} {narrow? : ℤ → Option α}
    {toInt : α → ℤ} {limit : ℤ} (hround : ∀ x : Double, x.RoundsTo toInt limit (round? x))
    (hnarrow : Narrows narrow? toInt limit) {word : α} :
    v.word? round? narrow? = some word ↔ v.HasWhole (toInt word) := by
  have hexact : ∀ {read : Option ℤ}, read.bind narrow? = some word ↔ read = some (toInt word) := by
    intro read
    simp [Option.bind_eq_some_iff, hnarrow.some_iff]
  constructor
  · intro h
    cases v with
    | float x =>
      obtain ⟨q, hq, hn⟩ := ((hround x.convert).some_iff word).1 h
      rw [Binary.value?_convert] at hq
      exact .float hq hn
    | double x =>
      obtain ⟨q, hq, hn⟩ := ((hround x).some_iff word).1 h
      exact .double hq hn
    | string s => exact .string (trimmed_trim _) (Decimal.readInt?_eq_some_iff.1 (hexact.1 h))
    | _ => exact .integer (hexact.1 h)
  · intro h
    cases h with
    | integer h => cases v <;> first | exact hexact.2 h | cases h
    | @float x q _ hq hn =>
      rw [← Binary.value?_convert] at hq
      exact ((hround x.convert).some_iff word).2 ⟨q, hq, hn⟩
    | @double x q _ hq hn => exact ((hround x).some_iff word).2 ⟨q, hq, hn⟩
    | string htrim hds =>
      rw [word?, trim_of_trimmed htrim, Decimal.readInt?_of_whole hds]
      exact hnarrow.some_iff.2 rfl

theorem toInt32?_eq_some_iff {word : Int32} : v.toInt32? = some word ↔ v.HasWhole word.toInt :=
  word?_eq_some_iff Double.roundsTo_int32 narrows_int32

theorem toInt64?_eq_some_iff {word : Int64} : v.toInt64? = some word ↔ v.HasWhole word.toInt :=
  word?_eq_some_iff Double.roundsTo_int64 narrows_int64

theorem binary?_eq_some_iff {f : Binary.Format} {x : Binary f} :
    v.binary? = some x ↔ v.HasBinary x := by
  constructor
  · intro h
    cases v with
    | float =>
      cases h
      exact .float
    | double =>
      cases h
      exact .double
    | string =>
      obtain ⟨m, hm, rfl⟩ := Option.map_eq_some_iff.1 h
      exact .string (trimmed_trim _) (Numeral.read?_eq_some_iff.1 hm)
    | bool | int | long | enum =>
      cases h
      exact .integer rfl
    | _ => cases h
  · intro h
    cases h with
    | integer h => cases v <;> cases h <;> rfl
    | float | double => rfl
    | string htrim hds =>
      rw [binary?, trim_of_trimmed htrim, Numeral.read?_eq_some_iff.2 hds, Option.map_some]

theorem readBool?_eq_some_iff {cs : List Char} {b : Bool} :
    readBool? cs = some b ↔ Spelled cs (if b then "true" else "false") := by
  have htrue : Numeral.sameLetters cs "true".toList = true ↔ Spelled cs "true" :=
    sameLetters_iff rfl
  have hfalse : Numeral.sameLetters cs "false".toList = true ↔ Spelled cs "false" :=
    sameLetters_iff rfl
  unfold readBool?
  constructor
  · intro h
    split at h
    · cases h
      exact htrue.1 ‹_›
    · split at h
      · cases h
        exact hfalse.1 ‹_›
      · cases h
  · intro h
    cases b with
    | true => rw [if_pos (htrue.2 h)]
    | false =>
      have hother : ¬ Spelled cs "true" := fun hother => absurd (h.symm.trans hother) (by decide)
      rw [if_neg (mt htrue.1 hother), if_pos (hfalse.2 h)]

theorem toBool?_eq_some_iff {b : Bool} : v.toBool? = some b ↔ v.HasTruth b := by
  have hbinary : ∀ {f : Binary.Format} {x : Binary f}, (!x.isZero) = b ↔
      (b = true ↔ x.value? ≠ some 0) := by
    intro f x
    rw [ne_eq, ← Binary.isZero_iff]
    cases b <;> cases x.isZero <;> simp
  have hinteger : ∀ {n : ℤ}, (n != 0) = b ↔ (b = true ↔ n ≠ 0) := by
    intro n
    cases b <;> simp
  constructor
  · intro h
    cases v with
    | float x => exact .float (hbinary.1 (Option.some.inj h))
    | double x => exact .double (hbinary.1 (Option.some.inj h))
    | string => exact .string (trimmed_trim _) (readBool?_eq_some_iff.1 h)
    | bool | int | long | enum => exact .integer rfl (hinteger.1 (Option.some.inj h))
    | _ => cases h
  · intro h
    cases h with
    | integer hn hb => cases v <;> cases hn <;> exact congrArg some (hinteger.2 hb)
    | float hb | double hb => exact congrArg some (hbinary.2 hb)
    | string htrim hspelled =>
      rw [toBool?, trim_of_trimmed htrim, readBool?_eq_some_iff.2 hspelled]

/-- A value of another kind is converted as the relation says. -/
theorem convert?_eq_some_iff (hne : v.kind ≠ k) :
    v.convert? k = some w ↔ w.kind = k ∧ v.Becomes w := by
  unfold convert?
  rw [if_neg hne]
  constructor
  · intro h
    cases k with
    | int =>
      obtain ⟨n, hn, rfl⟩ := Option.map_eq_some_iff.1 h
      exact ⟨rfl, .int (toInt32?_eq_some_iff.1 hn)⟩
    | long =>
      obtain ⟨n, hn, rfl⟩ := Option.map_eq_some_iff.1 h
      exact ⟨rfl, .long (toInt64?_eq_some_iff.1 hn)⟩
    | float =>
      obtain ⟨x, hx, rfl⟩ := Option.map_eq_some_iff.1 h
      exact ⟨rfl, .float (binary?_eq_some_iff.1 hx)⟩
    | double =>
      obtain ⟨x, hx, rfl⟩ := Option.map_eq_some_iff.1 h
      exact ⟨rfl, .double (binary?_eq_some_iff.1 hx)⟩
    | bool =>
      obtain ⟨b, hb, rfl⟩ := Option.map_eq_some_iff.1 h
      exact ⟨rfl, .bool (toBool?_eq_some_iff.1 hb)⟩
    | _ => cases h
  · rintro ⟨rfl, hbecomes⟩
    cases hbecomes with
    | int h => simp [kind, toInt32?_eq_some_iff.2 h]
    | long h => simp [kind, toInt64?_eq_some_iff.2 h]
    | float h | double h => simp [kind, binary?_eq_some_iff.2 h]
    | bool h => simp [kind, toBool?_eq_some_iff.2 h]

/-! ## Which values are converted -/

/-- A whole number fits its own kind, so it is too wide for an int only if it is a long. -/
theorem fits_of_integer? (hn : v.integer? = some n) (hk : k = .int ∨ k = .long)
    (hlong : v.kind = .long → k = .int → Kind.int.Fits n) : k.Fits n := by
  have hfits := fits_common hn k
  unfold Kind.common at hfits
  rcases hk with rfl | rfl
  · by_cases hkind : v.kind = .long
    · exact hlong hkind rfl
    · simpa [hkind] using hfits
  · simpa using hfits

theorem becomes_whole (h : v.HasWhole n) (hk : k = .int ∨ k = .long) (hfits : k.Fits n) :
    ∃ w, w.kind = k ∧ v.Becomes w := by
  obtain ⟨hle, hlt⟩ := hfits
  rcases hk with rfl | rfl
  · exact ⟨.int (Int32.ofInt n), rfl, .int (by rwa [Int32.toInt_ofInt_of_le hle hlt])⟩
  · exact ⟨.long (Int64.ofInt n), rfl, .long (by rwa [Int64.toInt_ofInt_of_le hle hlt])⟩

theorem accepts_of_whole (h : v.HasWhole n) (hk : k = .int ∨ k = .long) (hfits : k.Fits n) :
    v.Accepts k := by
  have hladder : k ∈ Kind.ladder := by rcases hk with rfl | rfl <;> simp [Kind.ladder]
  cases h with
  | integer hn =>
    refine .integer hn hladder ?_
    rintro _ rfl
    exact hfits
  | float hq hn => exact .float hladder fun _ => ⟨_, n, hq, hn, hfits⟩
  | double hq hn => exact .double hladder fun _ => ⟨_, n, hq, hn, hfits⟩
  | string htrim hds => exact .string htrim (.whole hds hk hfits)

theorem accepts_of_binary {f : Binary.Format} {x : Binary f} (h : v.HasBinary x)
    (hk : k = .float ∨ k = .double) : v.Accepts k := by
  have hladder : k ∈ Kind.ladder := by rcases hk with rfl | rfl <;> simp [Kind.ladder]
  have hwhole : ¬ (k = .int ∨ k = .long) := by rcases hk with rfl | rfl <;> simp
  cases h with
  | integer hn =>
    refine .integer hn hladder ?_
    rintro _ rfl
    exact absurd (.inl rfl) hwhole
  | float => exact .float hladder fun h => absurd h hwhole
  | double => exact .double hladder fun h => absurd h hwhole
  | string htrim hds => exact .string htrim (.binary hds hk)

theorem accepts_of_truth {b : Bool} (h : v.HasTruth b) : v.Accepts .bool := by
  have hladder : Kind.bool ∈ Kind.ladder := by simp [Kind.ladder]
  have hnot : ¬ (Kind.bool = .int ∨ Kind.bool = .long) := by decide
  cases h with
  | integer hn _ => exact .integer hn hladder fun _ hint => absurd (.inl hint) hnot
  | float => exact .float hladder fun hwhole => absurd hwhole hnot
  | double => exact .double hladder fun hwhole => absurd hwhole hnot
  | string htrim hspelled =>
    cases b with
    | true => exact .string htrim (.bool (.inl hspelled))
    | false => exact .string htrim (.bool (.inr hspelled))

theorem becomes_of_ladder (hk : k ∈ Kind.ladder)
    (hwhole : k = .int ∨ k = .long → ∃ n, v.HasWhole n ∧ k.Fits n)
    (hbinary : ∀ f, ∃ x : Binary f, v.HasBinary x) (htruth : ∃ b, v.HasTruth b) :
    ∃ w, w.kind = k ∧ v.Becomes w := by
  simp only [Kind.ladder, List.mem_cons, List.not_mem_nil, or_false] at hk
  rcases hk with rfl | rfl | rfl | rfl | rfl
  · obtain ⟨x, hx⟩ := hbinary .double
    exact ⟨.double x, rfl, .double hx⟩
  · obtain ⟨x, hx⟩ := hbinary .single
    exact ⟨.float x, rfl, .float hx⟩
  · obtain ⟨n, hn, hfits⟩ := hwhole (.inr rfl)
    exact becomes_whole hn (.inr rfl) hfits
  · obtain ⟨n, hn, hfits⟩ := hwhole (.inl rfl)
    exact becomes_whole hn (.inl rfl) hfits
  · obtain ⟨b, hb⟩ := htruth
    exact ⟨.bool b, rfl, .bool hb⟩

theorem exists_becomes_iff : (∃ w, w.kind = k ∧ v.Becomes w) ↔ v.Accepts k := by
  constructor
  · rintro ⟨w, rfl, hbecomes⟩
    cases hbecomes with
    | int h => exact accepts_of_whole h (.inl rfl) ⟨Int32.le_toInt _, Int32.toInt_lt _⟩
    | long h => exact accepts_of_whole h (.inr rfl) ⟨Int64.le_toInt _, Int64.toInt_lt _⟩
    | float h => exact accepts_of_binary h (.inl rfl)
    | double h => exact accepts_of_binary h (.inr rfl)
    | bool h => exact accepts_of_truth h
  · intro h
    cases h with
    | @integer v n k hn hk hlong =>
      exact becomes_of_ladder hk (fun hk => ⟨n, .integer hn, fits_of_integer? hn hk hlong⟩)
        (fun _ => ⟨_, .integer hn⟩) ⟨decide (n ≠ 0), .integer hn (by simp)⟩
    | @float x k hk hwhole =>
      refine becomes_of_ladder hk ?_ (fun _ => ⟨_, .float⟩)
        ⟨decide (x.value? ≠ some 0), .float (by simp)⟩
      intro hk
      obtain ⟨q, n, hq, hn, hfits⟩ := hwhole hk
      exact ⟨n, .float hq hn, hfits⟩
    | @double x k hk hwhole =>
      refine becomes_of_ladder hk ?_ (fun _ => ⟨_, .double⟩)
        ⟨decide (x.value? ≠ some 0), .double (by simp)⟩
      intro hk
      obtain ⟨q, n, hq, hn, hfits⟩ := hwhole hk
      exact ⟨n, .double hq hn, hfits⟩
    | @string s ds k htrim hreads =>
      cases hreads with
      | whole hds hk hfits => exact becomes_whole (.string htrim hds) hk hfits
      | binary hds hk =>
        rcases hk with rfl | rfl
        · exact ⟨_, rfl, .float (.string htrim hds)⟩
        · exact ⟨_, rfl, .double (.string htrim hds)⟩
      | bool hspelled =>
        rcases hspelled with h | h
        · exact ⟨.bool true, rfl, .bool (.string htrim h)⟩
        · exact ⟨.bool false, rfl, .bool (.string htrim h)⟩

/-! ## Integers -/

/-- The number alone decides what becomes of it. -/
theorem IsExactly.convert? (h : v.IsExactly n) : v.convert? .bool = some (.bool (n != 0)) ∧
    v.convert? .int = (int32? n).map .int ∧ v.convert? .long = (int64? n).map .long := by
  cases h with
  | @integer v n hn =>
    cases v with
    | bool b =>
      cases hn
      cases b <;> exact ⟨rfl, rfl, rfl⟩
    | int m =>
      cases hn
      rw [int32?_toInt]
      exact ⟨rfl, rfl, rfl⟩
    | long m =>
      cases hn
      rw [int64?_toInt]
      exact ⟨rfl, rfl, rfl⟩
    | enum m =>
      cases hn
      exact ⟨rfl, rfl, rfl⟩
    | _ => cases hn
  | @float x n hx =>
    have hvalue : (x.convert : Double).value? = some (n : ℚ) := x.value?_convert.trans hx.1
    simp [Value.convert?, kind, toBool?, toInt32?, toInt64?, word?, hx.isZero, bne,
      Double.roundToInt32?_of_nearest hvalue (.refl n),
      Double.roundToInt64?_of_nearest hvalue (.refl n)]
  | double hx =>
    simp [Value.convert?, kind, toBool?, toInt32?, toInt64?, word?, hx.isZero, bne,
      Double.roundToInt32?_of_nearest hx.1 (.refl n),
      Double.roundToInt64?_of_nearest hx.1 (.refl n)]

/-- A kind that has a number gets exactly this number. -/
theorem convert?_of_holds (hn : v.integer? = some n) (hk : k.Holds n) :
    ∃ w, v.convert? k = some w ∧ w.IsExactly n := by
  obtain ⟨_, hint, hlong⟩ := (IsExactly.integer hn).convert?
  have hne : v.kind ≠ .float ∧ v.kind ≠ .double := by
    cases v <;> cases hn <;> exact ⟨nofun, nofun⟩
  rcases hk with ⟨rfl | rfl, hle, hlt⟩ | ⟨rfl, hwide⟩ | ⟨rfl, hwide⟩
  · have hword := Int32.toInt_ofInt_of_le hle hlt
    rw [int32?_eq_some_iff.2 hword] at hint
    exact ⟨_, hint, .integer (congrArg some hword)⟩
  · have hword := Int64.toInt_ofInt_of_le hle hlt
    rw [int64?_eq_some_iff.2 hword] at hlong
    exact ⟨_, hlong, .integer (congrArg some hword)⟩
  · exact ⟨_, (convert?_eq_some_iff hne.1).2 ⟨rfl, .float (.integer hn)⟩,
      .float (Binary.ofInt_is Binary.holdsUnit_single hwide)⟩
  · exact ⟨_, (convert?_eq_some_iff hne.2).2 ⟨rfl, .double (.integer hn)⟩,
      .double (Binary.ofInt_is Binary.holdsUnit_double hwide)⟩

/-- The text of a truth value or of a whole number stands for it, whatever blanks are around it. -/
theorem becomes_of_text (h : Heap) (pattern : String)
    (hv : v.kind = .bool ∨ v.kind = .int ∨ v.kind = .long) {before after : String}
    (hbefore : ∀ c ∈ before.toList, blank c = true) (hafter : ∀ c ∈ after.toList, blank c = true) :
    (Value.string (before ++ h.text pattern v ++ after)).Becomes v := by
  have htrim : ∀ {text : String}, (∀ c ∈ text.toList, blank c = false) →
      Trimmed (before ++ text ++ after).toList text.toList := by
    intro text htext
    rw [String.toList_append, String.toList_append]
    exact trimmed_append hbefore hafter htext
  have hwhole : ∀ n, (Value.string (before ++ Decimal.intText n ++ after)).HasWhole n := by
    intro n
    apply HasWhole.string (htrim _) _
    · rw [Decimal.intText, String.toList_ofList]
      exact fun c hc => Decimal.not_blank_of_mem_intDigits hc
    · rw [Decimal.intText, String.toList_ofList]
      exact Decimal.whole_intDigits n
  have htext := h.text_of_ne_list (v := v) pattern (by rcases hv with hv | hv | hv <;> simp [hv])
  rw [htext]
  cases v with
  | bool b =>
    have hword : ∀ b : Bool, ∀ c ∈ (if b then "true" else "false").toList, blank c = false := by
      intro b
      cases b <;> simp [blank]
    have hspelled : ∀ b : Bool, Spelled (if b then "true" else "false").toList
        (if b then "true" else "false") := by
      intro b
      cases b <;> rfl
    exact .bool (.string (htrim (hword b)) (hspelled b))
  | int n => exact .int (hwhole n.toInt)
  | long n => exact .long (hwhole n.toInt)
  | _ => simp [kind] at hv

end Value

namespace Heap

/-- How values are converted. -/
structure Converts (h : Heap) (pattern : String) (span : Span) : Prop where
  unchanged : ∀ v, h.convert span v v.kind = .ok v
  succeeds_iff : ∀ v k, (∃ w, h.convert span v k = .ok w) ↔ v.kind = k ∨ v.Accepts k
  becomes : ∀ v k w, v.kind ≠ k → (h.convert span v k = .ok w ↔ w.kind = k ∧ v.Becomes w)
  stable : ∀ v k w, h.convert span v k = .ok w → w.kind = k ∧ h.convert span w k = .ok w
  refused : ∀ v k e, h.convert span v k = .error e →
    e = ⟨.conversionFailure (h.describe v) v.kind k none, span⟩
  /-- A text that says the value, with blanks around it, is converted back. -/
  said : ∀ v (before after : String), v.kind = .bool ∨ v.kind = .int ∨ v.kind = .long →
    (∀ c ∈ before.toList, blank c = true) → (∀ c ∈ after.toList, blank c = true) →
      h.convert span (.string (before ++ h.text pattern v ++ after)) v.kind = .ok v
  /-- An integer may go through any kind that has it without rounding. -/
  through : ∀ v n k, v.integer? = some n → k.Holds n → ∃ w, h.convert span v k = .ok w ∧
    ∀ target, target = .bool ∨ target = .int ∨ target = .long →
      ∀ u, h.convert span w target = .ok u ↔ h.convert span v target = .ok u

variable (h : Heap) {v w : Value} {k : Kind} {span : Span}

theorem convert_eq_ok_iff : h.convert span v k = .ok w ↔ v.convert? k = some w := by
  unfold convert
  cases v.convert? k <;> simp

theorem convert_error {e : RuntimeError} (herror : h.convert span v k = .error e) :
    e = h.conversionFailure v k span := by
  unfold convert at herror
  split at herror <;> cases herror
  rfl

/-- Values convert exactly where they may, to what they should, and integers come back. -/
theorem values_convert_where_they_may (h : Heap) (pattern : String) (span : Span) :
    h.Converts pattern span where
  unchanged := fun v => h.convert_eq_ok_iff.2 v.convert?_kind
  succeeds_iff := by
    intro v k
    simp only [convert_eq_ok_iff]
    by_cases hk : v.kind = k
    · subst hk
      exact iff_of_true ⟨v, v.convert?_kind⟩ (.inl rfl)
    · simp only [Value.convert?_eq_some_iff hk, Value.exists_becomes_iff, hk, false_or]
  becomes := by
    intro v k w hne
    rw [convert_eq_ok_iff, Value.convert?_eq_some_iff hne]
  stable := by
    intro v k w hw
    have hkind : w.kind = k := Value.kind_of_convert? (h.convert_eq_ok_iff.1 hw)
    subst hkind
    exact ⟨rfl, h.convert_eq_ok_iff.2 w.convert?_kind⟩
  refused := fun v k e herror => h.convert_error herror
  said := by
    intro v before after hv hbefore hafter
    rw [convert_eq_ok_iff, Value.convert?_eq_some_iff]
    · exact ⟨rfl, Value.becomes_of_text h pattern hv hbefore hafter⟩
    · rcases hv with hv | hv | hv <;> rw [hv] <;> nofun
  through := by
    intro v n k hn hk
    obtain ⟨w, hw, hexactly⟩ := Value.convert?_of_holds hn hk
    refine ⟨w, h.convert_eq_ok_iff.2 hw, ?_⟩
    obtain ⟨hbool, hint, hlong⟩ := hexactly.convert?
    obtain ⟨hbool', hint', hlong'⟩ := (Value.IsExactly.integer hn).convert?
    rintro target (rfl | rfl | rfl) u
    · rw [convert_eq_ok_iff, convert_eq_ok_iff, hbool, hbool']
    · rw [convert_eq_ok_iff, convert_eq_ok_iff, hint, hint']
    · rw [convert_eq_ok_iff, convert_eq_ok_iff, hlong, hlong']

end Heap

end TemplateExpr
