import Mathlib.Data.List.Induction
import Mathlib.Data.List.Infix
import SymbolAtlas.Text.Lowercase

/-!
# Lowercase forms of beginnings

What becomes of a capital sigma depends on the text around it; every other character has one
lowercase form. So the lowercase form of a text falls apart where the text does, if each part knows
what stands around it. It follows that a beginning of a text keeps its letters in the lowercase form
of the whole, unless it ends in a sigma that ends a word there and does not end it in the text.
-/

namespace SymbolAtlas.Text

/-- Whether the last character that is not looked through has a case; `before` says so of the text
that comes first. -/
def casedAfter (before : Bool) (cs : List Char) : Bool :=
  cs.foldl (fun cased c => if isCaseIgnorable c then cased else isCased c) before

/-- Whether the first character that is not looked through has a case; `next` says so of the text
that follows. -/
def casedBefore (next : Bool) : List Char → Bool
  | [] => next
  | c :: rest => if isCaseIgnorable c then casedBefore next rest else isCased c

/-- The lowercase form of a text between two others; `before` and `next` say whether the closest
characters of these that are not looked through have a case. -/
def lowercaseBetween (before next : Bool) : List Char → List Char
  | [] => []
  | c :: rest =>
    (if c = 'Σ' then [if before && !casedBefore next rest then 'ς' else 'σ']
      else lowercaseChar c) ++
    lowercaseBetween (if isCaseIgnorable c then before else isCased c) next rest

variable {b next : Bool} {c : Char} {cs rest : List Char}

/-! ## Taking a text apart -/

theorem startsCased_append (cs rest : List Char) :
    startsCased (cs ++ rest) = casedBefore (startsCased rest) cs := by
  induction cs with
  | nil => rfl
  | cons c cs ih => rw [List.cons_append, startsCased, casedBefore, ih]

theorem lowercaseAfter_append (b : Bool) (cs rest : List Char) :
    lowercaseAfter b (cs ++ rest) =
      lowercaseBetween b (startsCased rest) cs ++ lowercaseAfter (casedAfter b cs) rest := by
  induction cs generalizing b with
  | nil => rfl
  | cons c cs ih =>
      rw [List.cons_append, lowercaseAfter, lowercaseBetween, startsCased_append, ih,
        List.append_assoc]
      rfl

theorem lowercaseAfter_eq (b : Bool) (cs : List Char) :
    lowercaseAfter b cs = lowercaseBetween b false cs := by
  have h := lowercaseAfter_append b cs []
  rwa [List.append_nil, lowercaseAfter, List.append_nil] at h

theorem length_lowercaseBetween (b next next' : Bool) (cs : List Char) :
    (lowercaseBetween b next cs).length = (lowercaseBetween b next' cs).length := by
  induction cs generalizing b with
  | nil => rfl
  | cons c cs ih =>
      rw [lowercaseBetween, lowercaseBetween, List.length_append, List.length_append, ih]
      by_cases hc : c = 'Σ' <;> simp [hc]

/-! ## Sigmas at the end -/

/-- Whether a text that follows another ends a word with a capital sigma: nothing comes after the
sigma but what is looked through, and a character with a case comes before it. -/
def EndsInSigmaAfter (b : Bool) (cs : List Char) : Prop :=
  ∃ front ignored, cs = front ++ 'Σ' :: ignored ∧ casedAfter b front = true ∧
    ∀ c ∈ ignored, isCaseIgnorable c = true

/-- Whether a text ends a word with a capital sigma, with what is looked through after it. -/
def EndsInSigma (cs : List Char) : Prop :=
  ∃ front ignored, cs = front ++ 'Σ' :: ignored ∧ startsCased front.reverse = true ∧
    ∀ c ∈ ignored, isCaseIgnorable c = true

theorem EndsInSigma.sigma_mem (h : EndsInSigma cs) : 'Σ' ∈ cs := by
  obtain ⟨front, ignored, rfl, -⟩ := h
  simp

theorem casedAfter_false (cs : List Char) : casedAfter false cs = startsCased cs.reverse := by
  induction cs using List.reverseRecOn with
  | nil => rfl
  | append_singleton cs c ih =>
      rw [List.reverse_append, List.reverse_singleton, List.singleton_append, startsCased, ← ih]
      unfold casedAfter
      rw [List.foldl_append, List.foldl_cons, List.foldl_nil]

theorem endsInSigmaAfter_false : EndsInSigmaAfter false cs ↔ EndsInSigma cs := by
  unfold EndsInSigmaAfter EndsInSigma
  simp only [casedAfter_false]

theorem endsInSigmaAfter_cons :
    EndsInSigmaAfter b (c :: cs) ↔
      (c = 'Σ' ∧ b = true ∧ ∀ d ∈ cs, isCaseIgnorable d = true) ∨
        EndsInSigmaAfter (if isCaseIgnorable c then b else isCased c) cs := by
  constructor
  · rintro ⟨front, ignored, heq, hcased, hignored⟩
    cases front with
    | nil =>
        obtain ⟨rfl, rfl⟩ := List.cons.inj heq
        exact .inl ⟨rfl, hcased, hignored⟩
    | cons d front =>
        obtain ⟨rfl, rfl⟩ := List.cons.inj heq
        exact .inr ⟨front, ignored, rfl, hcased, hignored⟩
  · rintro (⟨rfl, hb, hignored⟩ | ⟨front, ignored, rfl, hcased, hignored⟩)
    · exact ⟨[], cs, rfl, hb, hignored⟩
    · exact ⟨c :: front, ignored, rfl, hcased, hignored⟩

theorem casedBefore_of_ignored (h : ∀ c ∈ cs, isCaseIgnorable c = true) :
    casedBefore next cs = next := by
  induction cs with
  | nil => rfl
  | cons c cs ih =>
      rw [casedBefore, if_pos (h c List.mem_cons_self)]
      exact ih fun d hd => h d (List.mem_cons_of_mem c hd)

/-- What follows counts only where a text is looked through. -/
theorem casedBefore_congr (h : ¬ ∀ c ∈ cs, isCaseIgnorable c = true) (next next' : Bool) :
    casedBefore next cs = casedBefore next' cs := by
  induction cs with
  | nil => exact absurd (fun _ hd => absurd hd List.not_mem_nil) h
  | cons c cs ih =>
      rw [casedBefore, casedBefore]
      by_cases hc : isCaseIgnorable c = true
      · rw [if_pos hc, if_pos hc]
        refine ih fun hall => h fun d hd => ?_
        rcases List.mem_cons.mp hd with rfl | hd
        · exact hc
        · exact hall d hd
      · rw [if_neg hc, if_neg hc]

/-- The letters of a text change with what follows only at a sigma that may end a word. -/
theorem lowercaseBetween_eq_iff :
    lowercaseBetween b false cs = lowercaseBetween b true cs ↔ ¬ EndsInSigmaAfter b cs := by
  induction cs generalizing b with
  | nil =>
      refine iff_of_true rfl ?_
      rintro ⟨front, ignored, heq, -⟩
      simp at heq
  | cons c cs ih =>
      rw [endsInSigmaAfter_cons, not_or, ← ih, lowercaseBetween, lowercaseBetween]
      by_cases hc : c = 'Σ'
      · rw [if_pos hc, if_pos hc, List.singleton_append, List.singleton_append, List.cons.injEq]
        refine and_congr_left fun _ => ?_
        by_cases hall : ∀ d ∈ cs, isCaseIgnorable d = true
        · rw [casedBefore_of_ignored hall, casedBefore_of_ignored hall]
          cases b with
          | false => simp
          | true => simpa [hc] using hall
        · rw [casedBefore_congr hall false true]
          simp [hall]
      · rw [if_neg hc, if_neg hc, List.append_cancel_left_eq]
        simp [hc]

/-- The lowercase form of a beginning is a beginning of the lowercase form, unless it ends a word
with a sigma where the text goes on with the word. -/
theorem lowercaseLetters_prefix_iff {s t : String} (h : t.toList = s.toList ++ rest) :
    lowercaseLetters s <+: lowercaseLetters t ↔
      ¬ (EndsInSigma s.toList ∧ startsCased rest = true) := by
  unfold lowercaseLetters
  rw [h, lowercaseAfter_append, lowercaseAfter_eq]
  have hlength := length_lowercaseBetween false false (startsCased rest) s.toList
  have hbegins : lowercaseBetween false false s.toList <+:
      lowercaseBetween false (startsCased rest) s.toList ++
        lowercaseAfter (casedAfter false s.toList) rest ↔
      lowercaseBetween false false s.toList =
        lowercaseBetween false (startsCased rest) s.toList := by
    constructor
    · intro hpre
      exact (List.prefix_of_prefix_length_le hpre (List.prefix_append _ _) hlength.le).eq_of_length
        hlength
    · intro heq
      rw [heq]
      exact List.prefix_append _ _
  rw [hbegins]
  cases hrest : startsCased rest with
  | false => simp
  | true => rw [lowercaseBetween_eq_iff, endsInSigmaAfter_false, and_iff_left rfl]

end SymbolAtlas.Text
