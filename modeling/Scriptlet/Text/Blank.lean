/-!
# Blanks

The six characters that separate lexemes and may surround a whole number: space, tab, line feed, vertical tab, form
feed and carriage return.
-/
namespace Scriptlet.Text

def isBlank (c : Char) : Bool :=
  c = ' ' || c = '\t' || c = '\n' || c = '\x0b' || c = '\x0c' || c = '\r'

/-- Drops the blanks at both ends. -/
def trim (cs : List Char) : List Char :=
  ((cs.dropWhile isBlank).reverse.dropWhile isBlank).reverse

theorem not_isBlank_of_isDigit {c : Char} (h : c.isDigit = true) : isBlank c = false := by
  have hne : ∀ x : Char, x.isDigit = false → c ≠ x := by
    rintro x hx rfl
    cases h.symm.trans hx
  simp only [isBlank, hne ' ' rfl, hne '\t' rfl, hne '\n' rfl, hne '\x0b' rfl, hne '\x0c' rfl, hne '\r' rfl,
    decide_false, Bool.or_self]

theorem dropWhile_of_not_blank : ∀ {cs : List Char}, (∀ c ∈ cs, isBlank c = false) → cs.dropWhile isBlank = cs
  | [], _ => rfl
  | c :: cs, h => List.dropWhile_cons_of_neg (by simp [h c (List.mem_cons_self ..)])

theorem trim_eq_self_of_not_blank {cs : List Char} (h : ∀ c ∈ cs, isBlank c = false) : trim cs = cs := by
  rw [trim, dropWhile_of_not_blank h, dropWhile_of_not_blank fun c hc => h c (List.mem_reverse.1 hc),
    List.reverse_reverse]

/-- Trimming takes nothing but blanks. -/
theorem exists_eq_trim (cs : List Char) :
    ∃ before after, cs = before ++ trim cs ++ after ∧ (∀ c ∈ before, isBlank c = true) ∧
      ∀ c ∈ after, isBlank c = true := by
  have hfront : cs.takeWhile isBlank ++ cs.dropWhile isBlank = cs := List.takeWhile_append_dropWhile
  have hback := List.takeWhile_append_dropWhile (p := isBlank) (l := (cs.dropWhile isBlank).reverse)
  have hmiddle : trim cs ++ ((cs.dropWhile isBlank).reverse.takeWhile isBlank).reverse = cs.dropWhile isBlank := by
    rw [trim, ← List.reverse_append, hback, List.reverse_reverse]
  refine ⟨cs.takeWhile isBlank, ((cs.dropWhile isBlank).reverse.takeWhile isBlank).reverse, ?_, ?_, ?_⟩
  · rw [List.append_assoc, hmiddle, hfront]
  · exact List.all_eq_true.1 List.all_takeWhile
  · exact fun c hc => List.all_eq_true.1 List.all_takeWhile c (List.mem_reverse.1 hc)

/-- Trimming takes all the blanks around characters that are none. -/
theorem trim_append {before core after : List Char} (hbefore : ∀ c ∈ before, isBlank c = true)
    (hafter : ∀ c ∈ after, isBlank c = true) (hne : core ≠ []) (hcore : ∀ c ∈ core, isBlank c = false) :
    trim (before ++ core ++ after) = core := by
  obtain ⟨c, rest, rfl⟩ := List.exists_cons_of_ne_nil hne
  have hfirst : (c :: rest ++ after).dropWhile isBlank = c :: rest ++ after :=
    List.dropWhile_cons_of_neg (by simp [hcore c (List.mem_cons_self ..)])
  have hafter' : ∀ x ∈ after.reverse, isBlank x = true := fun x hx => hafter x (List.mem_reverse.1 hx)
  rw [trim, List.append_assoc, List.dropWhile_append_of_pos hbefore, hfirst, List.reverse_append,
    List.dropWhile_append_of_pos hafter', dropWhile_of_not_blank fun x hx => hcore x (List.mem_reverse.1 hx),
    List.reverse_reverse]

end Scriptlet.Text
