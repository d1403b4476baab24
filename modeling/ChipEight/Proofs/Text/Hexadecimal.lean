import ChipEight.Proofs.Text.Numeral

/-!
Which texts are hexadecimal numbers. A person may write a number in many ways:
with blanks around it, with a sign, with a mark in front of the digits, and with
underscores between digits of any script (`HexNumeral`). The reader takes these
texts and no others, and gives each the value of its digits
(`readHex?_eq_some_iff`). What is shown on the desk is one of these ways, so it
can be typed in again (`spells_hex`), and it has one character for each four bits
as long as the number fits (`hex_eq_placeText`).
-/

namespace ChipEight.Text

/-- A character with its value as a hexadecimal digit. -/
structure HexDigit where
  char : Char
  value : Nat
  reads : digitBelow? 16 char = some value

/-- Groups of digits with one underscore between neighbours. -/
def groupChars (groups : List (List HexDigit)) : List Char :=
  ['_'].intercalate (groups.map (List.map HexDigit.char))

def groupValues (groups : List (List HexDigit)) : List Nat := groups.flatten.map HexDigit.value

/-- A zero of any script and an x, perhaps with an underscore behind them. -/
def IsHexMark (mark : List Char) : Prop :=
  ∃ zero x : Char, decimalDigit? zero = some 0 ∧ (x = 'x' ∨ x = 'X') ∧
    (mark = [zero, x] ∨ mark = [zero, x, '_'])

/-- A hexadecimal number as a person may write it. -/
structure HexNumeral where
  before : List Char
  sign : List Char
  mark : List Char
  groups : List (List HexDigit)
  behind : List Char
  blank_before : ∀ c ∈ before, isBlank c = true
  blank_behind : ∀ c ∈ behind, isBlank c = true
  sign_mem : sign ∈ [[], ['+'], ['-']]
  mark_eq : mark = [] ∨ IsHexMark mark
  groups_ne_nil : groups ≠ []
  group_ne_nil : ∀ group ∈ groups, group ≠ []

namespace HexNumeral

/-- What stands between the blanks. -/
def core (w : HexNumeral) : List Char := w.sign ++ (w.mark ++ groupChars w.groups)

def chars (w : HexNumeral) : List Char := w.before ++ (w.core ++ w.behind)

def value (w : HexNumeral) : Int :=
  signedNumber 16 (decide (w.sign = ['-'])) (groupValues w.groups)

end HexNumeral

/-- The text is a way to write the number in hexadecimal. -/
def Spells (text : String) (n : Int) : Prop :=
  ∃ w : HexNumeral, w.chars = text.toList ∧ w.value = n

theorem HexDigit.char_notMem (d : HexDigit) : d.char ∉ ['-', '+', '_', 'x', 'X'] := by
  have hnone : ['-', '+', '_', 'x', 'X'].all (fun c => (digitBelow? 16 c).isNone) = true := by
    decide
  intro hc
  have hdigit := List.all_eq_true.mp hnone d.char hc
  rw [d.reads] at hdigit
  cases hdigit

theorem groupChars_singleton (group : List HexDigit) :
    groupChars [group] = group.map HexDigit.char := by
  simp [groupChars, List.intercalate_singleton]

theorem groupChars_cons (group next : List HexDigit) (rest : List (List HexDigit)) :
    groupChars (group :: next :: rest) =
      group.map HexDigit.char ++ '_' :: groupChars (next :: rest) := by
  simp [groupChars, List.intercalate_cons_cons]

theorem groupChars_front (d : HexDigit) (group : List HexDigit) (rest : List (List HexDigit)) :
    groupChars ((d :: group) :: rest) = d.char :: groupChars (group :: rest) := by
  cases rest with
  | nil => rw [groupChars_singleton, groupChars_singleton, List.map_cons]
  | cons next rest => rw [groupChars_cons, groupChars_cons, List.map_cons, List.cons_append]

theorem mem_groupChars {groups : List (List HexDigit)} {c : Char} (h : c ∈ groupChars groups) :
    c = '_' ∨ ∃ d : HexDigit, c = d.char := by
  induction groups with
  | nil => cases h
  | cons group rest ih =>
      have hdigit (hc : c ∈ group.map HexDigit.char) : ∃ d : HexDigit, c = d.char := by
        obtain ⟨d, -, rfl⟩ := List.mem_map.mp hc
        exact ⟨d, rfl⟩
      cases rest with
      | nil =>
          rw [groupChars_singleton] at h
          exact Or.inr (hdigit h)
      | cons next rest =>
          rw [groupChars_cons] at h
          rcases List.mem_append.mp h with hfirst | hlater
          · exact Or.inr (hdigit hfirst)
          · rcases List.mem_cons.mp hlater with hbar | hrest
            · exact Or.inl hbar
            · exact ih hrest

theorem digitRun?_of_digit {d : HexDigit} {rest : List Char} {ds : List Nat}
    (h : digitRun? 16 rest = some ds) : digitRun? 16 (d.char :: rest) = some (d.value :: ds) := by
  rw [digitRun?.eq_4, d.reads, h]
  · rfl
  · rintro rfl
    cases h
  · rintro tail rfl
    -- An underscore is no digit, so no run begins with one.
    cases tail with
    | nil => cases h
    | cons c tail =>
        have hbar : digitBelow? 16 '_' = none := by decide
        by_cases hnext : c = '_'
        · rw [hnext, digitRun?.eq_3, hbar] at h
          cases h
        · rw [digitRun?.eq_4 _ _ _ (by simp) (by simp [hnext]), hbar] at h
          cases h

/-- Digits in groups are read as their values in order. -/
theorem digitRun?_groupChars {groups : List (List HexDigit)} (hne : groups ≠ [])
    (hgroups : ∀ group ∈ groups, group ≠ []) :
    digitRun? 16 (groupChars groups) = some (groupValues groups) := by
  induction groups with
  | nil => exact absurd rfl hne
  | cons group rest ih =>
      have hrest := fun hmore => ih hmore fun g hg => hgroups g (List.mem_cons_of_mem group hg)
      have hfirst := hgroups group List.mem_cons_self
      clear ih hne hgroups
      -- Inside a group the digits follow one another; only its last has an underscore behind it.
      induction group with
      | nil => exact absurd rfl hfirst
      | cons d group ih =>
          cases group with
          | cons e group =>
              rw [groupChars_front, digitRun?_of_digit (ih (by simp))]
              rfl
          | nil =>
              cases rest with
              | nil => simp [groupChars_singleton, digitRun?, d.reads, groupValues]
              | cons next rest =>
                  rw [groupChars_cons, List.map_singleton, List.singleton_append, digitRun?.eq_3,
                    d.reads, hrest (by simp)]
                  rfl

theorem exists_groups {cs : List Char} {ds : List Nat} (h : digitRun? 16 cs = some ds) :
    ∃ groups : List (List HexDigit), groups ≠ [] ∧ (∀ group ∈ groups, group ≠ []) ∧
      groupChars groups = cs ∧ groupValues groups = ds := by
  induction cs using digitRun?.induct generalizing ds with
  | case1 => cases h
  | case2 c =>
      rw [digitRun?.eq_2, Option.map_eq_some_iff] at h
      obtain ⟨d, hd, rfl⟩ := h
      exact ⟨[[⟨c, d, hd⟩]], by simp, by simp, groupChars_singleton _, rfl⟩
  | case3 c rest ih =>
      simp only [digitRun?.eq_3, Option.bind_eq_bind, Option.bind_eq_some_iff] at h
      obtain ⟨d, hd, ds', hrest, hds⟩ := h
      cases hds
      obtain ⟨groups, hne, hgroups, rfl, rfl⟩ := ih hrest
      obtain ⟨next, later, rfl⟩ := List.exists_cons_of_ne_nil hne
      refine ⟨[⟨c, d, hd⟩] :: next :: later, by simp, ?_, groupChars_cons _ _ _, rfl⟩
      exact List.forall_mem_cons.mpr ⟨by simp, hgroups⟩
  | case4 c rest hnil hbar ih =>
      simp only [digitRun?.eq_4 16 c rest hnil hbar, Option.bind_eq_bind,
        Option.bind_eq_some_iff] at h
      obtain ⟨d, hd, ds', hrest, hds⟩ := h
      cases hds
      obtain ⟨groups, hne, hgroups, rfl, rfl⟩ := ih hrest
      obtain ⟨group, later, rfl⟩ := List.exists_cons_of_ne_nil hne
      refine ⟨(⟨c, d, hd⟩ :: group) :: later, by simp, ?_, groupChars_front _ _ _, rfl⟩
      exact List.forall_mem_cons.mpr ⟨by simp, (List.forall_mem_cons.mp hgroups).2⟩

theorem isBlank_of_digitValue? {c : Char} {d : Nat} (h : digitValue? c = some d) :
    isBlank c = false := by
  have hcodes : ∀ n ∈ [9, 10, 11, 12, 13, 32] ++ wideBlanks,
      (digitZeros.find? fun z => z ≤ n && n < z + 10) = none ∧
        ¬(97 ≤ n ∧ n ≤ 122) ∧ ¬(65 ≤ n ∧ n ≤ 90) := by
    decide
  rw [← Bool.not_eq_true]
  intro hblank
  have hmember : c.toNat ∈ [9, 10, 11, 12, 13, 32] ++ wideBlanks := by
    simp only [isBlank, Bool.or_eq_true, Bool.and_eq_true, decide_eq_true_eq,
      List.contains_iff_mem] at hblank
    rw [List.mem_append]
    rcases hblank with (hspace | hcontrol) | hwide
    · simp [hspace]
    · refine Or.inl ?_
      have hrange : c.toNat = 9 ∨ c.toNat = 10 ∨ c.toNat = 11 ∨ c.toNat = 12 ∨ c.toNat = 13 := by
        omega
      simp only [List.mem_cons]
      omega
    · exact Or.inr hwide
  obtain ⟨hzero, hlower, hupper⟩ := hcodes c.toNat hmember
  simp [digitValue?, decimalDigit?, hzero, hlower, hupper] at h

theorem HexDigit.not_blank (d : HexDigit) : isBlank d.char = false := by
  obtain ⟨hvalue, -⟩ := Option.filter_eq_some_iff.mp d.reads
  exact isBlank_of_digitValue? hvalue

theorem trimBlanks_append {before core behind : List Char} (hne : core ≠ [])
    (hbefore : ∀ c ∈ before, isBlank c = true) (hbehind : ∀ c ∈ behind, isBlank c = true)
    (hcore : ∀ c ∈ core, isBlank c = false) :
    trimBlanks (before ++ (core ++ behind)) = core := by
  have hstop {cs tail : List Char} (hne : cs ≠ []) (hcs : ∀ c ∈ cs, isBlank c = false) :
      (cs ++ tail).dropWhile isBlank = cs ++ tail := by
    obtain ⟨c, rest, rfl⟩ := List.exists_cons_of_ne_nil hne
    rw [List.cons_append, List.dropWhile_cons_of_neg]
    simp [hcs c List.mem_cons_self]
  have hback : (core.reverse ++ []).dropWhile isBlank = core.reverse ++ [] :=
    hstop (by simpa using hne) (by simpa using hcore)
  rw [List.append_nil] at hback
  rw [trimBlanks, List.dropWhile_append_of_pos hbefore, hstop hne hcore, List.reverse_append,
    List.dropWhile_append_of_pos (by simpa using hbehind), hback, List.reverse_reverse]

theorem exists_blanks (cs : List Char) :
    ∃ before behind, cs = before ++ (trimBlanks cs ++ behind) ∧
      (∀ c ∈ before, isBlank c = true) ∧ ∀ c ∈ behind, isBlank c = true := by
  let rest := cs.dropWhile isBlank
  have htaken (cs : List Char) : ∀ c ∈ cs.takeWhile isBlank, isBlank c = true := by
    exact List.all_eq_true.mp List.all_takeWhile
  refine ⟨cs.takeWhile isBlank, (rest.reverse.takeWhile isBlank).reverse, ?_, htaken cs, ?_⟩
  · have hback : trimBlanks cs ++ (rest.reverse.takeWhile isBlank).reverse = rest := by
      rw [trimBlanks, ← List.reverse_append, List.takeWhile_append_dropWhile, List.reverse_reverse]
    rw [hback, List.takeWhile_append_dropWhile]
  · intro c hc
    exact htaken _ c (List.mem_reverse.mp hc)

theorem splitSign_append {sign rest : List Char} (hsign : sign ∈ [[], ['+'], ['-']])
    (hrest : rest.head? ≠ some '-' ∧ rest.head? ≠ some '+') :
    splitSign (sign ++ rest) = (decide (sign = ['-']), rest) := by
  simp only [List.mem_cons, List.not_mem_nil, or_false] at hsign
  rcases hsign with rfl | rfl | rfl
  · rw [List.nil_append, splitSign.eq_3]
    · rfl
    · rintro tail rfl
      exact hrest.1 rfl
    · rintro tail rfl
      exact hrest.2 rfl
  · rfl
  · rfl

theorem exists_sign (cs : List Char) :
    ∃ sign ∈ [[], ['+'], ['-']], cs = sign ++ (splitSign cs).2 ∧
      (splitSign cs).1 = decide (sign = ['-']) := by
  unfold splitSign
  split
  · exact ⟨['-'], by simp, rfl, rfl⟩
  · exact ⟨['+'], by simp, rfl, rfl⟩
  · exact ⟨[], by simp, rfl, rfl⟩

theorem dropHexMark_append {mark body : List Char} (hmark : mark = [] ∨ IsHexMark mark)
    (hfirst : body.head? ≠ some '_') (hsecond : ∀ c ∈ body, c ≠ 'x' ∧ c ≠ 'X') :
    dropHexMark (mark ++ body) = body := by
  rcases hmark with rfl | ⟨zero, x, hzero, hx, rfl | rfl⟩
  · rw [List.nil_append]
    unfold dropHexMark
    split
    · next z x rest =>
        have hplain := hsecond x (by simp)
        rw [if_neg (by simp [hplain])]
    · rfl
  · rw [List.cons_append, List.cons_append, List.nil_append, dropHexMark.eq_2, if_pos ⟨hzero, hx⟩]
    rintro tail rfl
    exact hfirst rfl
  · rw [List.cons_append, List.cons_append, List.cons_append, List.nil_append, dropHexMark.eq_1,
      if_pos ⟨hzero, hx⟩]

theorem exists_mark (cs : List Char) :
    ∃ mark, (mark = [] ∨ IsHexMark mark) ∧ cs = mark ++ dropHexMark cs := by
  unfold dropHexMark
  split
  · next zero x rest =>
      split
      · next hmark =>
          split
          · exact ⟨[zero, x, '_'], Or.inr ⟨zero, x, hmark.1, hmark.2, Or.inr rfl⟩, rfl⟩
          · exact ⟨[zero, x], Or.inr ⟨zero, x, hmark.1, hmark.2, Or.inl rfl⟩, rfl⟩
      · exact ⟨[], Or.inl rfl, rfl⟩
  · exact ⟨[], Or.inl rfl, rfl⟩

theorem IsHexMark.eq_cons {mark : List Char} (h : IsHexMark mark) :
    ∃ (zero : HexDigit) (rest : List Char), mark = zero.char :: rest ∧
      ∀ c ∈ rest, c ∈ ['-', '+', '_', 'x', 'X'] := by
  obtain ⟨zero, x, hzero, hx, hmark⟩ := h
  have hreads : digitBelow? 16 zero = some 0 := by simp [digitBelow?, digitValue?, hzero]
  have hletter : x ∈ ['-', '+', '_', 'x', 'X'] := by
    rcases hx with rfl | rfl <;> decide
  rcases hmark with rfl | rfl
  · exact ⟨⟨zero, 0, hreads⟩, [x], rfl, by simpa using hletter⟩
  · exact ⟨⟨zero, 0, hreads⟩, [x, '_'], rfl, by simpa using hletter⟩

namespace HexNumeral

theorem body_eq_cons (w : HexNumeral) :
    ∃ (d : HexDigit) (rest : List Char), groupChars w.groups = d.char :: rest := by
  obtain ⟨group, later, hgroups⟩ := List.exists_cons_of_ne_nil w.groups_ne_nil
  have hgroup := w.group_ne_nil group (by simp [hgroups])
  obtain ⟨d, rest, rfl⟩ := List.exists_cons_of_ne_nil hgroup
  exact ⟨d, _, by rw [hgroups, groupChars_front]⟩

/-- Behind the sign comes a digit, if only the zero of the mark. -/
theorem unsigned_eq_cons (w : HexNumeral) :
    ∃ (d : HexDigit) (rest : List Char), w.mark ++ groupChars w.groups = d.char :: rest := by
  rcases w.mark_eq with hnone | hmark
  · rw [hnone]
    exact w.body_eq_cons
  · obtain ⟨zero, rest, hmark, -⟩ := hmark.eq_cons
    exact ⟨zero, rest ++ groupChars w.groups, by rw [hmark, List.cons_append]⟩

theorem mem_core {w : HexNumeral} {c : Char} (h : c ∈ w.core) :
    c ∈ ['-', '+', '_', 'x', 'X'] ∨ ∃ d : HexDigit, c = d.char := by
  rcases List.mem_append.mp h with hsign | hunsigned
  · have hsigns : ∀ sign ∈ [[], ['+'], ['-']], sign ⊆ ['-', '+', '_', 'x', 'X'] := by decide
    exact Or.inl (hsigns w.sign w.sign_mem hsign)
  rcases List.mem_append.mp hunsigned with hmember | hbody
  · rcases w.mark_eq with hnone | hmark
    · rw [hnone] at hmember
      cases hmember
    · obtain ⟨zero, rest, hmark, hrest⟩ := hmark.eq_cons
      rw [hmark] at hmember
      rcases List.mem_cons.mp hmember with rfl | hlater
      · exact Or.inr ⟨zero, rfl⟩
      · exact Or.inl (hrest c hlater)
  · rcases mem_groupChars hbody with rfl | hdigit
    · exact Or.inl (by decide)
    · exact Or.inr hdigit

theorem core_not_blank (w : HexNumeral) : ∀ c ∈ w.core, isBlank c = false := by
  have hsigns : ['-', '+', '_', 'x', 'X'].all (fun c => !isBlank c) = true := by decide
  intro c hc
  rcases mem_core hc with hsign | ⟨d, rfl⟩
  · simpa using List.all_eq_true.mp hsigns c hsign
  · exact d.not_blank

theorem trimBlanks_chars (w : HexNumeral) : trimBlanks w.chars = w.core := by
  obtain ⟨d, rest, hunsigned⟩ := w.unsigned_eq_cons
  have hne : w.core ≠ [] := by simp [core, hunsigned]
  exact trimBlanks_append hne w.blank_before w.blank_behind w.core_not_blank

theorem splitSign_core (w : HexNumeral) :
    splitSign w.core = (decide (w.sign = ['-']), w.mark ++ groupChars w.groups) := by
  obtain ⟨d, rest, hunsigned⟩ := w.unsigned_eq_cons
  apply splitSign_append w.sign_mem
  rw [hunsigned]
  constructor
  · intro hminus
    exact d.char_notMem (by simp [Option.some.inj hminus])
  · intro hplus
    exact d.char_notMem (by simp [Option.some.inj hplus])

theorem dropHexMark_unsigned (w : HexNumeral) :
    dropHexMark (w.mark ++ groupChars w.groups) = groupChars w.groups := by
  apply dropHexMark_append w.mark_eq
  · obtain ⟨d, rest, hbody⟩ := w.body_eq_cons
    rw [hbody]
    intro hbar
    exact d.char_notMem (by simp [Option.some.inj hbar])
  · intro c hc
    rcases mem_groupChars hc with rfl | ⟨d, rfl⟩
    · decide
    · have hplain := d.char_notMem
      simp only [List.mem_cons, not_or] at hplain
      exact ⟨hplain.2.2.2.1, hplain.2.2.2.2.1⟩

theorem readHex?_chars (w : HexNumeral) {text : String} (h : w.chars = text.toList) :
    readHex? text = some w.value := by
  have hdigits := digitRun?_groupChars w.groups_ne_nil w.group_ne_nil
  simp only [readHex?, ← h, trimBlanks_chars, splitSign_core, dropHexMark_unsigned, hdigits]
  rfl

end HexNumeral

theorem spells_of_readHex? {text : String} {n : Int} (h : readHex? text = some n) :
    Spells text n := by
  obtain ⟨before, behind, htext, hbefore, hbehind⟩ := exists_blanks text.toList
  obtain ⟨sign, hsign, hcore, hnegative⟩ := exists_sign (trimBlanks text.toList)
  obtain ⟨mark, hmark, hunsigned⟩ := exists_mark (splitSign (trimBlanks text.toList)).2
  simp only [readHex?, Option.bind_eq_bind, Option.bind_eq_some_iff] at h
  obtain ⟨ds, hds, hn⟩ := h
  obtain ⟨groups, hne, hgroups, hbody, hvalues⟩ := exists_groups hds
  refine ⟨⟨before, sign, mark, groups, behind, hbefore, hbehind, hsign, hmark, hne, hgroups⟩,
    ?_, ?_⟩
  · simp only [HexNumeral.chars, HexNumeral.core, hbody, ← hunsigned, ← hcore, ← htext]
  · simp only [HexNumeral.value, hvalues, ← hnegative]
    exact Option.some.inj hn

/-- The reader takes a text just if the text is a way to write a number, and gives
that number. -/
theorem readHex?_eq_some_iff {text : String} {n : Int} :
    readHex? text = some n ↔ Spells text n := by
  constructor
  · exact spells_of_readHex?
  · rintro ⟨w, htext, rfl⟩
    exact w.readHex?_chars htext

theorem exists_hexDigits {ds : List Nat} (h : ∀ d ∈ ds, d < 16) :
    ∃ group : List HexDigit, group.map HexDigit.char = ds.map digitChar ∧
      group.map HexDigit.value = ds := by
  induction ds with
  | nil => exact ⟨[], rfl, rfl⟩
  | cons d rest ih =>
      obtain ⟨hd, hrest⟩ := List.forall_mem_cons.mp h
      obtain ⟨group, hchars, hvalues⟩ := ih hrest
      refine ⟨⟨digitChar d, d, digitBelow?_digitChar (by decide) hd⟩ :: group, ?_, ?_⟩
      · rw [List.map_cons, List.map_cons, hchars]
      · rw [List.map_cons, hvalues]

/-- A number with its sign, filled with zeros to any width, is a way to write it. -/
theorem spells_hex (width : Nat) (n : Int) : Spells (hex width n) n := by
  obtain ⟨group, hchars, hvalues⟩ :=
    exists_hexDigits (@paddedDigits_lt 16 (by decide) width n)
  have hgroup : group ≠ [] := by
    intro hnil
    rw [hnil] at hvalues
    exact paddedDigits_ne_nil 16 width n hvalues.symm
  have hsign : signChars n ∈ [[], ['+'], ['-']] ∧ (signChars n = ['-'] ↔ n < 0) := by
    unfold signChars
    split <;> simp [*]
  refine ⟨⟨[], signChars n, [], [group], [], by simp, by simp, hsign.1, Or.inl rfl, by simp,
    by simpa using hgroup⟩, ?_, ?_⟩
  · rw [hex, toList_intText, ← hchars, ← groupChars_singleton]
    simp [HexNumeral.chars, HexNumeral.core]
  · have hdigits : groupValues [group] = paddedDigits 16 width n := by
      simpa [groupValues] using hvalues
    simp only [HexNumeral.value, hdigits, hsign.2, signedNumber_paddedDigits]

/-- The digits of a number at as many places, the highest first. Each takes up
four bits. -/
def hexPlaces (width n : Nat) : List Nat :=
  (List.range width).reverse.map fun place => n >>> (4 * place) % 16

/-- The characters of these digits. -/
def placeText (width n : Nat) : String := String.ofList ((hexPlaces width n).map digitChar)

theorem shiftRight_place (n place : Nat) : n >>> (4 * (place + 1)) = (n / 16) >>> (4 * place) := by
  have hfirst : n >>> 4 = n / 16 := Nat.shiftRight_eq_div_pow n 4
  rw [Nat.mul_add, Nat.add_comm, Nat.shiftRight_add, Nat.mul_one, hfirst]

theorem hexPlaces_succ (width n : Nat) :
    hexPlaces (width + 1) n = hexPlaces width (n / 16) ++ [n % 16] := by
  simp [hexPlaces, List.range_succ_eq_map, shiftRight_place, Function.comp_def]

theorem signChars_natCast (n : Nat) : signChars n = [] := if_neg (by omega)

theorem digits_of_lt {n : Nat} (h : n < 16) : digits 16 n = [n] := by
  rw [digits, if_neg (by omega)]

theorem paddedDigits_succ {width : Nat} (hwidth : 0 < width) (n : Nat) :
    paddedDigits 16 (width + 1) n = paddedDigits 16 width (n / 16 : Nat) ++ [n % 16] := by
  simp only [paddedDigits, signChars_natCast, Int.natAbs_natCast, List.length_nil, Nat.sub_zero]
  by_cases hsmall : n < 16
  · rw [Nat.div_eq_of_lt hsmall, digits_of_lt hsmall, digits_of_lt (Nat.zero_lt_succ 15),
      Nat.mod_eq_of_lt hsmall, List.length_singleton, List.length_singleton,
      ← List.replicate_succ', Nat.sub_add_cancel hwidth, Nat.add_sub_cancel]
  · rw [digits, if_pos (by omega), List.length_append, List.length_singleton,
      Nat.add_sub_add_right, List.append_assoc]

theorem paddedDigits_eq_hexPlaces {width n : Nat} (hfits : n >>> (4 * (width + 1)) = 0) :
    paddedDigits 16 (width + 1) n = hexPlaces (width + 1) n := by
  induction width generalizing n with
  | zero =>
      have hsmall : n < 16 := by
        rw [shiftRight_place] at hfits
        simpa using hfits
      simp [paddedDigits, signChars_natCast, digits_of_lt hsmall, hexPlaces,
        Nat.mod_eq_of_lt hsmall]
  | succ width ih =>
      rw [shiftRight_place] at hfits
      rw [paddedDigits_succ (Nat.zero_lt_succ width), hexPlaces_succ, ih hfits]

/-- A number that fits is shown by one character at each place. -/
theorem hex_eq_placeText {width n : Nat} (hfits : n >>> (4 * (width + 1)) = 0) :
    hex (width + 1) n = placeText (width + 1) n := by
  rw [placeText, ← paddedDigits_eq_hexPlaces hfits, ← String.toList_inj, String.toList_ofList, hex,
    toList_intText, signChars_natCast, List.nil_append]

/-- All numbers up to a limit have as many digits as the limit has places. -/
theorem hex_eq_placeText_of_le {width : Nat} {n limit : Int}
    (hlimit : limit.toNat >>> (4 * (width + 1)) = 0) (h : 0 ≤ n ∧ n ≤ limit) :
    hex (width + 1) n = placeText (width + 1) n.toNat := by
  have hfits : n.toNat >>> (4 * (width + 1)) = 0 := by
    rw [Nat.shiftRight_eq_div_pow] at hlimit ⊢
    apply Nat.eq_zero_of_le_zero
    rw [← hlimit]
    exact Nat.div_le_div_right (by omega)
  rw [← hex_eq_placeText hfits, Int.toNat_of_nonneg h.1]

end ChipEight.Text
