import Mathlib.Tactic.GCongr
import Mathlib.Tactic.NormNum
import MaterialViewer.Number.Decimal
import MaterialViewer.Proofs.Number.Rounding
import MaterialViewer.Proofs.Text.Split

/-!
# Proofs: reading what was written

The text of a finite single holds the digits of its shortest decimal. Zeros at its two ends change
the decimal that is read, but not its value, and the single nearest to a decimal depends on the
value alone.
-/

namespace MaterialViewer.Number

variable {n k : Nat} {e : Int} {negative : Bool} {x : Single} {cs ds : List Char}

/-! ## Digits -/

theorem digit?_of_isDigit {c : Char} (hc : c.isDigit = true) :
    digit? c = some (c.toNat - '0'.toNat) := by
  simp only [Char.isDigit, Bool.and_eq_true, decide_eq_true_eq] at hc
  exact if_pos hc

theorem digitsFrom?_eq (h : ∀ c ∈ cs, c.isDigit = true) (acc : Nat) :
    digitsFrom? acc cs = some (Nat.ofDigitChars 10 cs acc) := by
  induction cs generalizing acc with
  | nil => rfl
  | cons c cs ih =>
    rw [digitsFrom?, digit?_of_isDigit (h c List.mem_cons_self), Option.bind_some,
      ih (fun d hd => h d (List.mem_cons_of_mem _ hd)), Nat.ofDigitChars_cons]

theorem digits?_eq (hne : cs ≠ []) (h : ∀ c ∈ cs, c.isDigit = true) :
    digits? cs = some (Nat.ofDigitChars 10 cs 0) := by
  rw [digits?, if_neg hne, digitsFrom?_eq h]

theorem isDigit_of_mem_natText {c : Char} (hc : c ∈ natText n) : c.isDigit = true :=
  Nat.isDigit_of_mem_toDigits (by decide) (by decide) hc

theorem ofDigitChars_natText (n : Nat) : Nat.ofDigitChars 10 (natText n) 0 = n :=
  Nat.ofDigitChars_ten_toDigits

theorem ofDigitChars_append_zeros (acc : Nat) :
    Nat.ofDigitChars 10 (cs ++ List.replicate k '0') acc = Nat.ofDigitChars 10 cs acc * 10 ^ k := by
  rw [Nat.ofDigitChars_append, Nat.ofDigitChars_replicate_zero, Nat.mul_comm]

theorem ofDigitChars_zeros_append :
    Nat.ofDigitChars 10 (List.replicate k '0' ++ cs) 0 = Nat.ofDigitChars 10 cs 0 := by
  rw [Nat.ofDigitChars_append, Nat.ofDigitChars_replicate_zero, Nat.mul_zero]

theorem natText_mul_pow (hn : 0 < n) :
    natText (n * 10 ^ k) = natText n ++ List.replicate k '0' := by
  induction k with
  | zero => rw [pow_zero, Nat.mul_one, List.replicate_zero, List.append_nil]
  | succ k ih =>
    have hsnoc := Nat.toDigits_append_toDigits (show 1 < 10 by decide)
      (show 0 < n * 10 ^ k by positivity) (show 0 < 10 by decide)
    rw [List.replicate_succ', ← List.append_assoc, ← ih, pow_succ, ← Nat.mul_assoc, Nat.mul_comm]
    exact hsnoc.symm

/-- What is dropped at the end of digits without trailing zeros is zeros. -/
theorem exists_zeros (cs : List Char) :
    ∃ j, cs = Text.dropEndWhile (· = '0') cs ++ List.replicate j '0' := by
  induction cs with
  | nil => exact ⟨0, rfl⟩
  | cons c cs ih =>
    obtain ⟨j, hj⟩ := ih
    rw [Text.dropEndWhile]
    split
    next hnil =>
      rw [hnil, List.nil_append] at hj
      split
      next hc =>
        refine ⟨j + 1, ?_⟩
        rw [of_decide_eq_true hc, List.nil_append, List.replicate_succ, ← hj]
      · exact ⟨j, by rw [List.singleton_append, ← hj]⟩
    next hcons => exact ⟨j, by rw [List.cons_append, ← hj]⟩

/-! ## The single nearest to a decimal -/

/-- A decimal may as well be written with more zeros at its end. -/
theorem toSingle_mul_pow :
    Decimal.toSingle negative ⟨n * 10 ^ k, e - k⟩ = Decimal.toSingle negative ⟨n, e⟩ := by
  rcases Nat.eq_zero_or_pos n with rfl | hn
  · rw [Nat.zero_mul, Decimal.toSingle, Decimal.toSingle, if_pos rfl, if_pos rfl]
  have hlength : e - k + ((natText (n * 10 ^ k)).length : Int) = e + (natText n).length := by
    rw [natText_mul_pow hn, List.length_append, List.length_replicate]
    omega
  have hratio : Single.ofRatio negative (n * 10 ^ k * 10 ^ (e - k).toNat) (10 ^ (-(e - k)).toNat) =
      Single.ofRatio negative (n * 10 ^ e.toNat) (10 ^ (-e).toNat) := by
    refine Single.ofRatio_congr (by positivity) (by positivity) ?_
    rw [Nat.mul_assoc, Nat.mul_assoc, Nat.mul_assoc, ← pow_add, ← pow_add, ← pow_add]
    congr 2
    omega
  have hpos : n * 10 ^ k ≠ 0 := by positivity
  unfold Decimal.toSingle
  simp only [hlength, Nat.pow_eq, hratio, hpos, if_false, Nat.ne_of_gt hn]

theorem length_natText_le_iff (hk : 0 < k) : (natText n).length ≤ k ↔ n < 10 ^ k :=
  Nat.length_toDigits_le_iff (by decide) hk

theorem ten_pow_le_five_pow {a : Nat} (hlow : 61 ≤ a) (hhigh : a ≤ 149) :
    10 ^ (a - 61) ≤ 5 ^ a := by
  have htwo : 2 ^ (a - 61) ≤ 5 ^ 61 :=
    calc 2 ^ (a - 61) ≤ 2 ^ 88 := Nat.pow_le_pow_right (by decide) (by omega)
      _ ≤ 5 ^ 61 := by norm_num
  calc 10 ^ (a - 61) = 2 ^ (a - 61) * 5 ^ (a - 61) := Nat.mul_pow 2 5 _
    _ ≤ 5 ^ 61 * 5 ^ (a - 61) := Nat.mul_le_mul_right _ htwo
    _ = 5 ^ a := by rw [← pow_add]; congr 1; omega

/-- The digits of a mantissa with a negative power of two lie at most sixty places from the point. -/
theorem length_mul_five_pow {m a : Nat} (hpos : 0 < m) (hlt : m < 2 ^ 24) (ha : a ≤ 149) :
    (natText (m * 5 ^ a)).length ≤ 60 + a ∧ a ≤ (natText (m * 5 ^ a)).length + 60 := by
  have hlength : 0 < (natText (m * 5 ^ a)).length := List.length_pos_of_ne_nil Nat.toDigits_ne_nil
  constructor
  · refine (length_natText_le_iff (by omega)).mpr ?_
    calc m * 5 ^ a < 2 ^ 24 * 5 ^ a := by gcongr
      _ ≤ 10 ^ 60 * 10 ^ a := by gcongr <;> norm_num
      _ = 10 ^ (60 + a) := (pow_add 10 60 a).symm
  · by_contra hmore
    have hfew := (length_natText_le_iff (n := m * 5 ^ a) (k := a - 61) (by omega)).mp (by omega)
    have hmany : 10 ^ (a - 61) ≤ m * 5 ^ a :=
      (ten_pow_le_five_pow (by omega) ha).trans (Nat.le_mul_of_pos_left _ hpos)
    exact absurd hfew (Nat.not_lt_of_le hmany)

theorem length_mul_two_pow {m a : Nat} (hlt : m < 2 ^ 24) (ha : a ≤ 104) :
    (natText (m * 2 ^ a)).length ≤ 60 := by
  refine (length_natText_le_iff (by omega)).mpr ?_
  calc m * 2 ^ a < 2 ^ 24 * 2 ^ a := by gcongr
    _ ≤ 2 ^ 24 * 2 ^ 104 := by gcongr; norm_num
    _ < 10 ^ 60 := by norm_num

/-- A decimal is rounded unless it is far out of the range. -/
theorem toSingle_of_length (hn : 0 < n) (hlong : e + (natText n).length ≤ 60)
    (hshort : -60 ≤ e + (natText n).length) :
    Decimal.toSingle negative ⟨n, e⟩ =
      .ofRatio negative (n * Nat.pow 10 e.toNat) (Nat.pow 10 (-e).toNat) := by
  rw [Decimal.toSingle, if_neg (Nat.ne_of_gt hn), if_neg (Int.not_lt_of_ge hlong),
    if_neg (Int.not_lt_of_ge hshort)]

theorem magnitude_of_mantissa_eq_zero (h : x.mantissa = 0) : x.magnitude = 0 := by
  have hscale : x.scale = -149 := x.le_mantissa.resolve_left (by omega)
  rw [← x.magnitude_eq, h, hscale]
  rfl

theorem scale_le_of_isFinite (hx : x.isFinite = true) : x.scale ≤ 104 := by
  have hfinite : x.magnitude < 255 * 2 ^ 23 := of_decide_eq_true hx
  have hmagnitude := x.magnitude_eq
  have hmantissa := x.le_mantissa
  omega

/-- Every finite single is the nearest to its exact value, which is in the range. -/
theorem toSingle_ofSingle (hx : x.isFinite = true) :
    (Decimal.ofSingle x).toSingle x.isNegative = x := by
  have hlow := x.scale_ge
  have hhigh := scale_le_of_isFinite hx
  rcases Nat.eq_zero_or_pos x.mantissa with hzero | hpos
  · have hdigits : (Decimal.ofSingle x).digits = 0 := by
      unfold Decimal.ofSingle
      split <;> exact Nat.mul_eq_zero.mpr (.inl hzero)
    rw [Decimal.toSingle, if_pos hdigits, ← magnitude_of_mantissa_eq_zero hzero,
      Single.ofMagnitude_magnitude]
  by_cases hneg : x.scale < 0
  · obtain ⟨a, ha⟩ : ∃ a : Nat, x.scale = -(a : Int) := ⟨(-x.scale).toNat, by omega⟩
    obtain ⟨hlong, hshort⟩ := length_mul_five_pow hpos x.mantissa_lt (show a ≤ 149 by omega)
    rw [Decimal.ofSingle, if_pos hneg, ha, neg_neg, Int.toNat_natCast, Nat.pow_eq,
      toSingle_of_length (by positivity) (by omega) (by omega)]
    refine Single.ofRatio_exact hx (by rw [Nat.pow_eq]; positivity) ?_
    simp only [ha, neg_neg, Int.toNat_natCast, Int.toNat_neg_natCast, Nat.pow_eq, pow_zero,
      Nat.mul_one]
    rw [Nat.mul_assoc, ← Nat.mul_pow]
  · obtain ⟨a, ha⟩ : ∃ a : Nat, x.scale = (a : Int) := ⟨x.scale.toNat, by omega⟩
    have hlong := length_mul_two_pow x.mantissa_lt (show a ≤ 104 by omega)
    rw [Decimal.ofSingle, if_neg hneg, ha, Int.toNat_natCast, Nat.pow_eq,
      toSingle_of_length (by positivity) (by omega) (by omega)]
    refine Single.ofRatio_exact hx (by rw [Nat.pow_eq]; positivity) ?_
    simp only [ha, Int.toNat_natCast, Int.toNat_neg_natCast, Nat.pow_eq, pow_zero, Nat.mul_one,
      Int.toNat_zero, neg_zero, Nat.one_mul]

/-- The decimal that is written reads back as the single. -/
theorem toSingle_shortest (hx : x.isFinite = true) :
    (Decimal.shortest x).toSingle x.isNegative = x := by
  unfold Decimal.shortest
  dsimp only
  cases hfound : (Decimal.ofSingle x).candidates.find? fun d => d.toSingle x.isNegative = x with
  | none => exact toSingle_ofSingle hx
  | some d =>
    have hd := List.find?_some hfound
    exact of_decide_eq_true hd

/-! ## Reading decimals -/

/-- Digits with a point and more digits are read as all these digits. No point stands where no digit
follows. -/
theorem readDecimal?_digits {whole fraction : List Char} (hwhole : ∀ c ∈ whole, c.isDigit = true)
    (hfraction : ∀ c ∈ fraction, c.isDigit = true) (hne : whole ≠ []) :
    readDecimal? (whole ++ if fraction = [] then [] else '.' :: fraction) =
      some ⟨Nat.ofDigitChars 10 (whole ++ fraction) 0, -(fraction.length : Int)⟩ := by
  have hdigits : digits? (whole ++ fraction) = some (Nat.ofDigitChars 10 (whole ++ fraction) 0) :=
    digits?_eq (List.append_ne_nil_of_left_ne_nil hne _)
      fun c hc => (List.mem_append.mp hc).elim (hwhole c) (hfraction c)
  unfold readDecimal?
  by_cases hnone : fraction = []
  · rw [hnone, List.append_nil] at hdigits
    rw [if_pos hnone, List.append_nil, hnone, List.append_nil, spanDigits, Text.span_self hwhole]
    simp only [List.append_nil, hdigits]
    rfl
  · have hpoint : ∀ c ∈ ('.' :: fraction).head?, c.isDigit = false := by
      intro c hc
      rw [← Option.some.inj hc]
      rfl
    rw [if_neg hnone, spanDigits, Text.span_append hwhole hpoint]
    simp only [spanDigits, Text.span_self hfraction, hdigits]
    rfl

/-- The digits before and after the point, with the zeros that the layout adds on both sides. -/
theorem exists_positional (ds : List Char) (point : Int) (places : Nat) :
    ∃ (whole fraction : List Char) (before after : Nat),
      positional ds point places =
        (if whole = [] then ['0'] else whole) ++ (if fraction = [] then [] else '.' :: fraction) ∧
      whole ++ fraction = List.replicate before '0' ++ ds ++ List.replicate after '0' ∧
      -(fraction.length : Int) = point - ds.length - after := by
  unfold positional
  dsimp only
  refine ⟨_, _, (-point).toNat, point.toNat - ds.length +
    (places - (List.replicate (-point).toNat '0' ++ ds.drop point.toNat).length), rfl, ?_, ?_⟩
  · rcases Nat.eq_zero_or_pos point.toNat with hzero | hpos
    · rw [hzero, List.take_zero, List.drop_zero, List.nil_append, Nat.zero_sub, Nat.zero_add]
    · have hneg : (-point).toNat = 0 := by omega
      have hcut : (ds ++ List.replicate (point.toNat - ds.length) '0').take point.toNat ++
          ds.drop point.toNat = ds ++ List.replicate (point.toNat - ds.length) '0' := by
        rcases Nat.le_total point.toNat ds.length with hle | hle
        · rw [Nat.sub_eq_zero_of_le hle, List.replicate_zero, List.append_nil,
            List.take_append_drop]
        · rw [List.drop_of_length_le hle, List.append_nil, List.take_of_length_le]
          rw [List.length_append, List.length_replicate]
          omega
      rw [hneg, List.replicate_zero, List.nil_append, List.nil_append, ← List.append_assoc, hcut,
        ← List.replicate_append_replicate, List.append_assoc]
  · rw [List.length_append, List.length_append, List.length_replicate, List.length_replicate,
      List.length_drop]
    omega

theorem isDigit_of_padded {whole fraction : List Char} {before after : Nat}
    (h : ∀ c ∈ ds, c.isDigit = true)
    (happend : whole ++ fraction = List.replicate before '0' ++ ds ++ List.replicate after '0') :
    (∀ c ∈ whole, c.isDigit = true) ∧ ∀ c ∈ fraction, c.isDigit = true := by
  rw [← List.forall_mem_append, happend, List.forall_mem_append, List.forall_mem_append]
  exact ⟨⟨fun c hc => by rw [List.eq_of_mem_replicate hc]; rfl, h⟩,
    fun c hc => by rw [List.eq_of_mem_replicate hc]; rfl⟩

/-- The text of digits has the value of the digits, however they are laid out. -/
theorem readDecimal?_positional (h : ∀ c ∈ ds, c.isDigit = true) (point : Int) (places : Nat) :
    (readDecimal? (positional ds point places)).map (Decimal.toSingle negative) =
      some (Decimal.toSingle negative ⟨Nat.ofDigitChars 10 ds 0, point - ds.length⟩) := by
  obtain ⟨whole, fraction, before, after, htext, happend, hlength⟩ :=
    exists_positional ds point places
  obtain ⟨hdigits, hfraction⟩ := isDigit_of_padded h happend
  have hvalue : Nat.ofDigitChars 10 (whole ++ fraction) 0 =
      Nat.ofDigitChars 10 ds 0 * 10 ^ after := by
    rw [happend, ofDigitChars_append_zeros, ofDigitChars_zeros_append]
  have hread : readDecimal? (positional ds point places) =
      some ⟨Nat.ofDigitChars 10 ds 0 * 10 ^ after, point - ds.length - after⟩ := by
    rw [htext]
    by_cases hwhole : whole = []
    · have hzero : Nat.ofDigitChars 10 (['0'] ++ fraction) 0 =
          Nat.ofDigitChars 10 (whole ++ fraction) 0 := by
        rw [hwhole, Nat.ofDigitChars_append]
        rfl
      rw [if_pos hwhole, readDecimal?_digits (List.forall_mem_singleton.mpr rfl) hfraction
        (List.cons_ne_nil _ _), hzero, hvalue, hlength]
    · rw [if_neg hwhole, readDecimal?_digits hdigits hfraction hwhole, hvalue, hlength]
  rw [hread, Option.map_some, toSingle_mul_pow]

/-! ## Reading singles -/

theorem toSingle_significand (d : Decimal) :
    Decimal.toSingle negative ⟨Nat.ofDigitChars 10 (significand d).1 0,
      (significand d).2 - (significand d).1.length⟩ = d.toSingle negative := by
  by_cases hzero : d.digits = 0
  · rw [significand, if_pos hzero, Decimal.toSingle, Decimal.toSingle, if_pos hzero]
    rfl
  · obtain ⟨j, hj⟩ := exists_zeros (natText d.digits)
    rw [significand, if_neg hzero]
    dsimp only
    generalize Text.dropEndWhile (· = '0') (natText d.digits) = ds at hj ⊢
    have hvalue : Nat.ofDigitChars 10 ds 0 * 10 ^ j = d.digits := by
      rw [← ofDigitChars_append_zeros, ← hj, ofDigitChars_natText]
    have hexponent : d.exponent + (natText d.digits).length - ds.length = d.exponent + j := by
      rw [hj, List.length_append, List.length_replicate]
      omega
    rw [hexponent, ← toSingle_mul_pow (k := j), hvalue, Int.add_sub_cancel]

theorem isDigit_of_mem_significand (d : Decimal) :
    ∀ c ∈ (significand d).1, c.isDigit = true := by
  intro c hc
  unfold significand at hc
  split at hc
  · exact absurd hc List.not_mem_nil
  · obtain ⟨j, hj⟩ := exists_zeros (natText d.digits)
    have hmem : c ∈ natText d.digits := by
      rw [hj]
      exact List.mem_append_left _ hc
    exact isDigit_of_mem_natText hmem

/-- The digits of a finite single, with at least a number of places after the point. -/
def digitsText (places : Nat) (x : Single) : List Char :=
  positional (significand (.shortest x)).1 (significand (.shortest x)).2 places

/-- A finite single is read from its digits, with its sign before them. -/
theorem readUnsigned?_digitsText (hx : x.isFinite = true) (places : Nat) :
    readUnsigned? x.isNegative (digitsText places x) = some x := by
  rw [readUnsigned?, digitsText, readDecimal?_positional (isDigit_of_mem_significand _),
    toSingle_significand, toSingle_shortest hx, Option.some_or]

/-! ## The characters of a text -/

/-- The layout begins with a digit, and has no other characters than digits and the point. -/
theorem positional_chars (h : ∀ c ∈ ds, c.isDigit = true) (point : Int) (places : Nat) :
    (∃ c rest, positional ds point places = c :: rest ∧ c.isDigit = true) ∧
      ∀ c ∈ positional ds point places, c.isDigit = true ∨ c = '.' := by
  obtain ⟨whole, fraction, before, after, htext, happend, -⟩ := exists_positional ds point places
  obtain ⟨hwhole, hfraction⟩ := isDigit_of_padded h happend
  have hfront : ∀ c ∈ if whole = [] then ['0'] else whole, c.isDigit = true := by
    split
    · exact List.forall_mem_singleton.mpr rfl
    · exact hwhole
  rw [htext]
  constructor
  · split
    · exact ⟨_, _, rfl, rfl⟩
    next hne =>
      obtain ⟨c, rest, rfl⟩ := List.exists_cons_of_ne_nil hne
      exact ⟨c, _, rfl, hwhole c List.mem_cons_self⟩
  · intro c hc
    rcases List.mem_append.mp hc with hc | hc
    · exact .inl (hfront c hc)
    · split at hc
      · exact absurd hc List.not_mem_nil
      · exact (List.mem_cons.mp hc).symm.imp_left (hfraction c)

/-- A place after the point is a point and a zero, if there was no point. -/
theorem positional_one (h : ∀ c ∈ ds, c.isDigit = true) (point : Int) :
    positional ds point 1 =
      if (positional ds point 0).contains '.' then positional ds point 0
      else positional ds point 0 ++ ['.', '0'] := by
  have hpadded : ∀ places, positional ds point places =
      let whole := (ds ++ List.replicate (point.toNat - ds.length) '0').take point.toNat
      let fraction := List.replicate (-point).toNat '0' ++ ds.drop point.toNat
      (if whole = [] then ['0'] else whole) ++
        if fraction ++ List.replicate (places - fraction.length) '0' = [] then []
        else '.' :: (fraction ++ List.replicate (places - fraction.length) '0') := fun _ => rfl
  have hwhole : ∀ c ∈ (ds ++ List.replicate (point.toNat - ds.length) '0').take point.toNat,
      c.isDigit = true := by
    intro c hc
    rcases List.mem_append.mp (List.mem_of_mem_take hc) with hc | hc
    · exact h c hc
    · rw [List.eq_of_mem_replicate hc]
      rfl
  rw [hpadded, hpadded]
  generalize (ds ++ List.replicate (point.toNat - ds.length) '0').take point.toNat = whole at hwhole
  generalize List.replicate (-point).toNat '0' ++ ds.drop point.toNat = fraction
  have hpoint : '.' ∉ if whole = [] then ['0'] else whole := by
    split
    · decide
    · exact fun hmem => absurd (hwhole _ hmem) (by decide)
  simp only [Nat.zero_sub, List.replicate_zero, List.append_nil]
  cases fraction with
  | nil =>
    rw [if_pos rfl, List.append_nil, if_neg (mt List.contains_iff_mem.mp hpoint)]
    rfl
  | cons c rest =>
    have hcontains : ((if whole = [] then ['0'] else whole) ++ '.' :: c :: rest).contains '.' :=
      List.contains_iff_mem.mpr (List.mem_append_right _ List.mem_cons_self)
    have hlength : 1 - (c :: rest).length = 0 := Nat.sub_eq_zero_of_le (Nat.le_add_left _ _)
    rw [hlength, List.replicate_zero, List.append_nil, if_neg (List.cons_ne_nil _ _),
      if_pos hcontains]

/-- The sign of a number, as it is written. -/
def signText (x : Single) : List Char := if x.isNegative then ['-'] else []

theorem digitsText_eq_cons (places : Nat) (x : Single) :
    ∃ c rest, digitsText places x = c :: rest ∧ c.isDigit = true :=
  (positional_chars (isDigit_of_mem_significand _) _ places).1

theorem mem_digitsText {places : Nat} {c : Char} (hc : c ∈ digitsText places x) :
    c.isDigit = true ∨ c = '.' :=
  (positional_chars (isDigit_of_mem_significand _) _ places).2 c hc

/-- A finite single is read from its digits and its sign. -/
theorem readSingle?_signed (hx : x.isFinite = true) (places : Nat) :
    readSingle? (signText x ++ digitsText places x) = some x := by
  have hread := readUnsigned?_digitsText hx places
  unfold signText
  cases hneg : x.isNegative with
  | true =>
    rw [hneg] at hread
    exact hread
  | false =>
    rw [hneg] at hread
    obtain ⟨c, rest, htext, hc⟩ := digitsText_eq_cons places x
    rw [if_neg Bool.false_ne_true, List.nil_append]
    unfold readSingle?
    split
    next htail =>
      rw [htext] at htail
      rw [(List.cons.inj htail).1] at hc
      exact absurd hc (by decide)
    next htail =>
      rw [htext] at htail
      rw [(List.cons.inj htail).1] at hc
      exact absurd hc (by decide)
    · exact hread

theorem isNaN_of_isFinite (hx : x.isFinite = true) : x.isNaN = false := by
  have hlt : x.magnitude < Single.infiniteMagnitude := of_decide_eq_true hx
  exact decide_eq_false (by omega)

theorem plainText_of_isFinite (hx : x.isFinite = true) :
    plainText x = signText x ++ digitsText 0 x := by
  have hlt : x.magnitude < Single.infiniteMagnitude := of_decide_eq_true hx
  have hinf : x.isInfinite = false := decide_eq_false (by omega)
  rw [plainText, signedText, isNaN_of_isFinite hx, hinf]
  rfl

/-- There are two infinities. -/
theorem eq_infinity_of_not_isFinite (hnan : x.isNaN = false) (hx : ¬ x.isFinite = true) :
    x = .infinity ∨ x = .neg .infinity := by
  have hle : x.magnitude ≤ Single.infiniteMagnitude := Nat.le_of_not_gt (of_decide_eq_false hnan)
  have hge : Single.infiniteMagnitude ≤ x.magnitude :=
    Nat.le_of_not_lt fun hlt => hx (decide_eq_true hlt)
  have hmagnitude : x.magnitude = Single.infiniteMagnitude := Nat.le_antisymm hle hge
  have hself := x.ofMagnitude_magnitude
  rw [hmagnitude] at hself
  cases hneg : x.isNegative with
  | true =>
    rw [hneg] at hself
    exact .inr hself.symm
  | false =>
    rw [hneg] at hself
    exact .inl hself.symm

/-- The text of a single reads back, if it is a number. -/
theorem readSingle?_plainText (hx : x.isNaN = false) : readSingle? (plainText x) = some x := by
  by_cases hfinite : x.isFinite = true
  · rw [plainText_of_isFinite hfinite, readSingle?_signed hfinite]
  · rcases eq_infinity_of_not_isFinite hx hfinite with rfl | rfl
    · rfl
    · rfl

theorem plainText_ne_nil (hx : x.isNaN = false) : plainText x ≠ [] := by
  intro h
  have hread := readSingle?_plainText hx
  rw [h] at hread
  cases hread

/-- The text of a number consists of digits, a point and a sign, or it names an infinity. -/
theorem mem_plainText {c : Char} (hx : x.isNaN = false) (hc : c ∈ plainText x) :
    c.isDigit = true ∨ c ∈ ['-', '.', 'i', 'n', 'f'] := by
  by_cases hfinite : x.isFinite = true
  · rw [plainText_of_isFinite hfinite, signText] at hc
    rcases List.mem_append.mp hc with hc | hc
    · split at hc
      · rw [List.mem_singleton.mp hc]
        exact .inr (by decide)
      · cases hc
    · rcases mem_digitsText hc with hdigit | rfl
      · exact .inl hdigit
      · exact .inr (by decide)
  · refine .inr ?_
    rcases eq_infinity_of_not_isFinite hx hfinite with rfl | rfl
    · have hall : (plainText .infinity).all ['-', '.', 'i', 'n', 'f'].contains = true := by decide
      exact List.contains_iff_mem.mp (List.all_eq_true.mp hall c hc)
    · have hall : (plainText (.neg .infinity)).all ['-', '.', 'i', 'n', 'f'].contains = true := by decide
      exact List.contains_iff_mem.mp (List.all_eq_true.mp hall c hc)

end MaterialViewer.Number
