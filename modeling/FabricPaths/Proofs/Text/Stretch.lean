import FabricPaths.Proofs.Text.Scan

/-!
# Stretches of characters

A stretch is a run of characters of one class that is not empty. Where a text begins with a
stretch and does not go on with its class, there is no other such stretch at its beginning, so
that fields of different classes can be read one after another in one way only.
-/

namespace FabricPaths.Text

/-- A run of characters of a class that is not empty. -/
@[ext] structure Stretch (p : Char → Bool) where
  /-- The characters. -/
  chars : List Char
  /-- There is one at least. -/
  ne_nil : chars ≠ []
  /-- All of them are of the class. -/
  all : ∀ c ∈ chars, p c = true

/-- The text does not begin with a character of the class. -/
def Stops (p : Char → Bool) (cs : List Char) : Prop := ∀ c ∈ cs.head?, p c = false

variable {p q : Char → Bool} {c : Char} {f f' r r' cs : List Char}

/-- A text stops at its first character. -/
theorem stops_cons_iff : Stops p (c :: r) ↔ p c = false := by
  simp only [Stops, List.head?_cons, Option.mem_def, Option.some.injEq, forall_eq']

/-- What is left behind a run stops. -/
theorem stops_dropWhile (p : Char → Bool) (cs : List Char) : Stops p (cs.dropWhile p) := by
  intro c hc
  have hhead := List.head?_dropWhile_not p cs
  rw [Option.mem_def.mp hc] at hhead
  exact hhead

/-- A run is taken up to where the text stops. -/
theorem takeWhile_append_of_stops (hf : ∀ c ∈ f, p c = true) (hr : Stops p r) :
    (f ++ r).takeWhile p = f := by
  cases r with
  | nil => rw [List.append_nil, List.takeWhile_eq_self_iff.mpr hf]
  | cons c r => exact Scan.takeWhile_append_cons hf (Bool.eq_false_iff.mp (stops_cons_iff.mp hr)) r

/-- What is behind a run is left where the text stops. -/
theorem dropWhile_append_of_stops (hf : ∀ c ∈ f, p c = true) (hr : Stops p r) :
    (f ++ r).dropWhile p = r := by
  have hsplit := List.takeWhile_append_dropWhile (p := p) (l := f ++ r)
  rw [takeWhile_append_of_stops hf hr] at hsplit
  exact List.append_cancel_left hsplit

/-- A text has one run at its beginning that ends where the text stops. -/
theorem append_inj_of_stops (h : f ++ r = f' ++ r') (hf : ∀ c ∈ f, p c = true)
    (hf' : ∀ c ∈ f', p c = true) (hr : Stops p r) (hr' : Stops p r') : f = f' ∧ r = r' := by
  have hsame : f = f' := by
    rw [← takeWhile_append_of_stops hf hr, h, takeWhile_append_of_stops hf' hr']
  rw [hsame] at h
  exact ⟨hsame, List.append_cancel_left h⟩

namespace Stretch

/-- One character is a stretch. -/
def single (h : p c = true) : Stretch p :=
  ⟨[c], List.cons_ne_nil _ _, List.forall_mem_singleton.mpr h⟩

/-- A stretch has a first character. -/
theorem eq_cons (s : Stretch p) : ∃ c r, s.chars = c :: r ∧ p c = true := by
  obtain ⟨c, r, hchars⟩ := List.exists_cons_of_ne_nil s.ne_nil
  have hc : c ∈ s.chars := by simp only [hchars, List.mem_cons_self]
  exact ⟨c, r, hchars, s.all c hc⟩

/-- A text that begins with a stretch stops before all classes that the stretch is not of. -/
theorem stops_append (s : Stretch q) (h : ∀ c, q c = true → p c = false) (r : List Char) :
    Stops p (s.chars ++ r) := by
  obtain ⟨c, t, hchars, hc⟩ := s.eq_cons
  rw [hchars, List.cons_append, stops_cons_iff]
  exact h c hc

/-- A text has one stretch at its beginning that ends where the text stops. -/
theorem append_inj {s s' : Stretch p} (h : s.chars ++ r = s'.chars ++ r') (hr : Stops p r)
    (hr' : Stops p r') : s = s' ∧ r = r' := by
  obtain ⟨hchars, hrest⟩ := append_inj_of_stops h s.all s'.all hr hr'
  exact ⟨Stretch.ext hchars, hrest⟩

end Stretch

namespace Scan

/-- A run that is read is a stretch, and ends where the text stops. -/
theorem run_eq_some_iff : run p cs = some (f, r) ↔
    ∃ s : Stretch p, s.chars = f ∧ cs = s.chars ++ r ∧ Stops p r := by
  constructor
  · intro h
    unfold run at h
    split at h
    · cases h
    · rename_i hne
      obtain ⟨rfl, rfl⟩ := Prod.mk.inj (Option.some.inj h)
      exact ⟨⟨_, hne, fun c hc => List.mem_takeWhile_imp hc⟩, rfl,
        List.takeWhile_append_dropWhile.symm, stops_dropWhile p cs⟩
  · rintro ⟨s, rfl, rfl, hr⟩
    unfold run
    rw [takeWhile_append_of_stops s.all hr, dropWhile_append_of_stops s.all hr]
    obtain ⟨c, t, hchars, -⟩ := s.eq_cons
    rw [hchars]

/-- Blanks that are read are a stretch, and end where the text stops. -/
theorem blanks_eq_some_iff : blanks cs = some r ↔
    ∃ s : Stretch isBlank, cs = s.chars ++ r ∧ Stops isBlank r := by
  constructor
  · intro h
    cases cs with
    | nil => cases h
    | cons c t =>
      obtain ⟨hc, hrest⟩ := Option.ite_none_right_eq_some.mp h
      have hsplit : t.takeWhile isBlank ++ dropBlanks t = t := List.takeWhile_append_dropWhile
      have hstops : Stops isBlank (dropBlanks t) := stops_dropWhile isBlank t
      rw [Option.some.inj hrest] at hsplit hstops
      have hall : ∀ x ∈ c :: t.takeWhile isBlank, isBlank x = true :=
        List.forall_mem_cons.mpr ⟨hc, fun x hx => List.mem_takeWhile_imp hx⟩
      refine ⟨⟨c :: t.takeWhile isBlank, List.cons_ne_nil _ _, hall⟩, ?_, hstops⟩
      rw [List.cons_append, hsplit]
  · rintro ⟨s, rfl, hr⟩
    obtain ⟨c, t, hchars, hc⟩ := s.eq_cons
    have ht : ∀ x ∈ t, isBlank x = true := by
      intro x hx
      have hmem : x ∈ s.chars := by simp only [hchars, List.mem_cons, hx, or_true]
      exact s.all x hmem
    rw [hchars, List.cons_append]
    simp only [blanks, hc, if_true, Option.some.injEq]
    exact dropWhile_append_of_stops ht hr

/-- Blanks are read up to a character that is none. -/
theorem blanks_eq_some_cons_iff (hc : ¬ isBlank c = true) : blanks cs = some (c :: r) ↔
    ∃ b, b ≠ [] ∧ (∀ x ∈ b, isBlank x = true) ∧ cs = b ++ c :: r := by
  rw [blanks_eq_some_iff]
  constructor
  · rintro ⟨s, hcs, -⟩
    exact ⟨s.chars, s.ne_nil, s.all, hcs⟩
  · rintro ⟨b, hne, hb, hcs⟩
    exact ⟨⟨b, hne, hb⟩, hcs, stops_cons_iff.mpr (Bool.eq_false_iff.mpr hc)⟩

/-- A text has no last character of a kind exactly if it has none of that kind. -/
theorem beforeLast_eq_none_iff : beforeLast p cs = none ↔ ∀ c ∈ cs, p c = false := by
  unfold beforeLast
  split
  · rename_i hnil
    have hall := List.dropWhile_eq_nil_iff.mp hnil
    simp only [List.mem_reverse, Bool.not_eq_true'] at hall
    exact iff_of_true rfl hall
  · rename_i hcons
    refine iff_of_false nofun fun hall => ?_
    have hnil : cs.reverse.dropWhile (fun c => !p c) = [] := by
      simpa only [List.dropWhile_eq_nil_iff, List.mem_reverse, Bool.not_eq_true'] using hall
    rw [hnil] at hcons
    cases hcons

/-- A text is split before the last character of a kind. -/
theorem beforeLast_eq_some_iff : beforeLast p cs = some f ↔
    ∃ c behind, p c = true ∧ (∀ x ∈ behind, p x = false) ∧ cs = f ++ c :: behind := by
  constructor
  · intro h
    unfold beforeLast at h
    split at h
    · cases h
    · rename_i c before hcons
      have hstops := stops_dropWhile (fun c => !p c) cs.reverse
      have hsplit := List.takeWhile_append_dropWhile (p := fun c => !p c) (l := cs.reverse)
      rw [hcons] at hstops hsplit
      refine ⟨c, (cs.reverse.takeWhile fun c => !p c).reverse, ?_, ?_, ?_⟩
      · simpa only [Bool.not_eq_false'] using stops_cons_iff.mp hstops
      · intro x hx
        simpa only [Bool.not_eq_true'] using List.mem_takeWhile_imp (List.mem_reverse.mp hx)
      · rw [← Option.some.inj h, ← List.reverse_inj]
        simp only [List.reverse_append, List.reverse_cons, List.reverse_reverse,
          List.append_assoc, List.cons_append, List.nil_append, hsplit]
  · rintro ⟨c, behind, hc, hbehind, rfl⟩
    have hturned : (f ++ c :: behind).reverse = behind.reverse ++ c :: f.reverse := by
      simp only [List.reverse_append, List.reverse_cons, List.append_assoc, List.cons_append,
        List.nil_append]
    have hall : ∀ x ∈ behind.reverse, (!p x) = true := by
      simpa only [List.mem_reverse, Bool.not_eq_true'] using hbehind
    have hstops : Stops (fun c => !p c) (c :: f.reverse) := by
      simpa only [stops_cons_iff, Bool.not_eq_false'] using hc
    unfold beforeLast
    rw [hturned, dropWhile_append_of_stops hall hstops]
    exact congrArg some (List.reverse_reverse f)

/-- What has no character of a kind does not matter behind the last one. -/
theorem beforeLast_append (hr : ∀ c ∈ r, p c = false) :
    beforeLast p (cs ++ r) = beforeLast p cs := by
  have hall : ∀ c ∈ r.reverse, (!p c) = true := by
    simpa only [List.mem_reverse, Bool.not_eq_true'] using hr
  unfold beforeLast
  rw [List.reverse_append, List.dropWhile_append_of_pos hall]

/-- A text without line feeds stands on one line. -/
theorem lineRest_eq_self (h : '\n' ∉ cs) : lineRest cs = cs := by
  refine List.takeWhile_eq_self_iff.mpr fun c hc => ?_
  rw [bne_iff_ne]
  rintro rfl
  exact h hc

end Scan

/-! ## Classes without a common character -/

/-- The least and the greatest character of each range of blanks, by number. -/
def blankRanges : List (Nat × Nat) := [
  (0x09, 0x0d), (0x1c, 0x20), (0x85, 0x85), (0xa0, 0xa0), (0x1680, 0x1680), (0x2000, 0x200a),
  (0x2028, 0x2029), (0x202f, 0x202f), (0x205f, 0x205f), (0x3000, 0x3000)]

/-- A blank is in one of the ranges. -/
theorem exists_blankRange (h : isBlank c = true) :
    ∃ range ∈ blankRanges, range.1 ≤ c.toNat ∧ c.toNat ≤ range.2 := by
  simp only [isBlank, Bool.or_eq_true, Bool.and_eq_true, decide_eq_true_eq, beq_iff_eq] at h
  simp only [blankRanges, List.mem_cons, List.not_mem_nil, or_false, exists_eq_or_imp,
    exists_eq_left]
  omega

/-- No blank is a digit. -/
theorem isDigit_of_isBlank (h : isBlank c = true) : isDigit c = false := by
  obtain ⟨range, hrange, hlow, hhigh⟩ := exists_blankRange h
  have hclear : ∀ range ∈ blankRanges, (range.2 < 0x30 ∨ 0x39 < range.1) ∧
      ∀ z ∈ digitZeros, z + 10 ≤ range.1 ∨ range.2 < z := by decide
  obtain ⟨hten, hzeros⟩ := hclear range hrange
  have hnone : digitZeros.find? (fun z => z ≤ c.toNat && c.toNat < z + 10) = none := by
    rw [List.find?_eq_none]
    intro z hz hin
    simp only [Bool.and_eq_true, decide_eq_true_eq] at hin
    have := hzeros z hz
    omega
  have hten' : ¬ (0x30 ≤ c.toNat ∧ c.toNat ≤ 0x39) := by omega
  simp only [isDigit, digitValue?, hnone, Option.map_none, Bool.and_eq_true, decide_eq_true_eq,
    if_neg hten', ite_self, Option.isSome_none]

/-- No digit is a blank. -/
theorem isBlank_of_isDigit (h : isDigit c = true) : isBlank c = false := by
  rw [Bool.eq_false_iff]
  intro hblank
  rw [isDigit_of_isBlank hblank] at h
  cases h

end FabricPaths.Text
