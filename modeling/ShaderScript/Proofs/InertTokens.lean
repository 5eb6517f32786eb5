import Mathlib.Data.List.Infix
import ShaderScript.Script.Loading

/-!
# Operators without meaning stay wrapped

An operator that the catalog has no function for is shown beside its operand: in a comment in
JavaScript, in a text that is never evaluated in Python.  Its token is cleaned first, in one pass
that takes out ends of comments, quotes and backslashes and turns line ends into blanks.

What is taken out may have kept a star and a slash apart.  Then the cleaned token holds the end of a
comment after all, and the rest of the token is code.  A carriage return is not taken out either,
and it ends the line that a Python text has to stay on.
-/

namespace ShaderScript

variable {c : Char} {rest body : List Char}

/-! ## Cleaned tokens -/

/-- Characters that cleaning takes out as a whole. -/
inductive Removed : List Char → Prop
  | nil : Removed []
  | commentEnd {rest : List Char} (h : Removed rest) : Removed ('*' :: '/' :: rest)
  | quote {rest : List Char} (h : Removed rest) : Removed ('\'' :: rest)
  | backslash {rest : List Char} (h : Removed rest) : Removed ('\\' :: rest)

/-- Something is taken out between a star and a slash, and nothing else stands between them. -/
def Rejoins (token : List Char) : Prop :=
  ∃ before gap after, token = before ++ '*' :: (gap ++ '/' :: after) ∧ gap ≠ [] ∧ Removed gap

theorem Rejoins.cons {token : List Char} (h : Rejoins token) (c : Char) : Rejoins (c :: token) := by
  obtain ⟨before, gap, after, rfl, hgap⟩ := h
  exact ⟨c :: before, gap, after, rfl, hgap⟩

theorem cleanChars_removed {gap : List Char} (h : Removed gap) (rest : List Char) :
    cleanChars (gap ++ rest) = cleanChars rest := by
  induction h with
  | nil => rfl
  | commentEnd _ ih | quote _ ih | backslash _ ih => simpa [cleanChars] using ih

/-- A token can be cleaned in two parts, unless it is cut before a slash. -/
theorem cleanChars_append_cons (hc : c ≠ '/') (before rest : List Char) :
    cleanChars (before ++ c :: rest) = cleanChars before ++ cleanChars (c :: rest) := by
  have hcut : ∀ {a : Char} {before : List Char},
      (∀ r, a = '*' → before = '/' :: r → False) →
      ∀ r, a = '*' → before ++ c :: rest = '/' :: r → False := by
    intro a before hnot r ha hr
    cases before with
    | nil => exact hc (List.cons.inj hr).1
    | cons b before => exact hnot before ha (by rw [(List.cons.inj hr).1])
  fun_induction cleanChars before with
  | case1 => rfl
  | case2 before ih => exact ih
  | case3 a before hnot hdrop ih =>
    rw [List.cons_append, cleanChars_cons (hcut hnot), if_pos hdrop, ih]
  | case4 a before hnot hkeep ih =>
    rw [List.cons_append, cleanChars_cons (hcut hnot), if_neg hkeep, ih, List.cons_append]

/-- A slash comes to the front of a cleaned token when all before it is taken out. -/
theorem removed_of_cleanChars {token : List Char} (h : cleanChars token = '/' :: rest) :
    ∃ gap after, token = gap ++ '/' :: after ∧ Removed gap := by
  fun_induction cleanChars token with
  | case1 => cases h
  | case2 token ih =>
    obtain ⟨gap, after, rfl, hgap⟩ := ih h
    exact ⟨'*' :: '/' :: gap, after, rfl, .commentEnd hgap⟩
  | case3 c token _ hdrop ih =>
    obtain ⟨gap, after, rfl, hgap⟩ := ih h
    rcases hdrop with rfl | rfl
    · exact ⟨'\'' :: gap, after, rfl, .quote hgap⟩
    · exact ⟨'\\' :: gap, after, rfl, .backslash hgap⟩
  | case4 c token _ _ ih =>
    have hc := (List.cons.inj h).1
    split at hc
    · exact absurd hc (by decide)
    · exact ⟨[], token, by rw [hc]; rfl, .nil⟩

/-- A cleaned token holds the end of a comment exactly if cleaning brings its two characters
together. -/
theorem infix_cleanChars_iff (token : List Char) :
    ['*', '/'] <:+: cleanChars token ↔ Rejoins token := by
  constructor
  · intro h
    fun_induction cleanChars token with
    | case1 => exact absurd (List.eq_nil_of_infix_nil h) (List.cons_ne_nil _ _)
    | case2 token ih => exact ((ih h).cons '/').cons '*'
    | case3 c token _ _ ih => exact (ih h).cons c
    | case4 c token hnot _ ih =>
      rcases List.infix_cons_iff.mp h with hfront | hlater
      · -- The star is the character at hand, and the slash comes from further on.
        obtain ⟨u, hu⟩ := hfront
        obtain ⟨hc, hrest⟩ := List.cons.inj hu
        obtain ⟨gap, after, rfl, hgap⟩ := removed_of_cleanChars hrest.symm
        have hstar : c = '*' := by
          split at hc
          · exact absurd hc (by decide)
          · exact hc.symm
        refine ⟨[], gap, after, by rw [hstar]; rfl, ?_, hgap⟩
        rintro rfl
        exact hnot after hstar rfl
      · exact (ih hlater).cons c
  · rintro ⟨before, gap, after, rfl, hne, hgap⟩
    have hslash : cleanChars ('/' :: after) = '/' :: cleanChars after :=
      cleanChars_cons fun _ h => absurd h (by decide)
    have hstar : cleanChars ('*' :: (gap ++ '/' :: after)) =
        '*' :: cleanChars (gap ++ '/' :: after) := by
      refine cleanChars_cons fun r _ hr => ?_
      cases hgap with
      | nil => exact hne rfl
      | commentEnd | quote | backslash => exact absurd (List.cons.inj hr).1 (by decide)
    rw [cleanChars_append_cons (by decide), hstar, cleanChars_removed hgap, hslash]
    exact ⟨cleanChars before, cleanChars after, by simp⟩

/-- What a cleaned token never holds. -/
theorem ne_of_mem_cleanChars {token : List Char} (h : c ∈ cleanChars token) :
    c ≠ '\'' ∧ c ≠ '\\' ∧ c ≠ '\n' := by
  fun_induction cleanChars token with
  | case1 => exact absurd h List.not_mem_nil
  | case2 token ih => exact ih h
  | case3 a token _ _ ih => exact ih h
  | case4 a token _ hkeep ih =>
    rcases List.mem_cons.mp h with rfl | h
    · split
      · decide
      · rename_i hline
        exact ⟨fun ha => hkeep (.inl ha), fun ha => hkeep (.inr ha), hline⟩
    · exact ih h

/-- Carriage returns stay. -/
theorem return_mem_cleanChars_iff (token : List Char) :
    '\r' ∈ cleanChars token ↔ '\r' ∈ token := by
  fun_induction cleanChars token with
  | case1 => rfl
  | case2 token ih => simpa using ih
  | case3 a token _ hdrop ih =>
    have ha : '\r' ≠ a := by rcases hdrop with rfl | rfl <;> decide
    simpa [ha] using ih
  | case4 a token _ _ ih =>
    rw [List.mem_cons, List.mem_cons, ih]
    refine or_congr_left ?_
    split
    · rename_i hline
      subst hline
      decide
    · rfl

/-! ## Comments and texts -/

/-- What follows a comment, given all behind its opening. -/
def afterComment : List Char → Option (List Char)
  | '*' :: '/' :: rest => some rest
  | _ :: rest => afterComment rest
  | [] => none

/-- What follows a text in single quotes, given all behind its opening.  A backslash takes the
character behind it along, and a text does not go past the end of its line. -/
def afterText : List Char → Option (List Char)
  | '\'' :: rest => some rest
  | '\\' :: _ :: rest => afterText rest
  | c :: rest => if c = '\n' ∨ c = '\r' then none else afterText rest
  | [] => none

/-- A character that does not start the end of a comment belongs to the comment. -/
theorem afterComment_cons (h : ∀ r, c = '*' → rest = '/' :: r → False) :
    afterComment (c :: rest) = afterComment rest := by
  rw [afterComment]
  exact h

/-- A character and what stands behind it hold the end of a comment if the character starts it, or
if it comes later. -/
theorem commentEnd_infix_cons_iff :
    ['*', '/'] <:+: c :: rest ↔ (∃ r, c = '*' ∧ rest = '/' :: r) ∨ ['*', '/'] <:+: rest := by
  rw [List.infix_cons_iff]
  refine or_congr_left ⟨?_, ?_⟩
  · rintro ⟨r, hr⟩
    obtain ⟨hc, hrest⟩ := List.cons.inj hr
    exact ⟨r, hc.symm, hrest.symm⟩
  · rintro ⟨r, rfl, rfl⟩
    exact ⟨r, rfl⟩

/-- The first end of a comment is the one that counts. -/
theorem afterComment_of_infix (h : ['*', '/'] <:+: body) (rest : List Char) :
    ∃ left, afterComment (body ++ rest) = some (left ++ rest) := by
  induction body with
  | nil => exact absurd (List.eq_nil_of_infix_nil h) (List.cons_ne_nil _ _)
  | cons c body ih =>
    by_cases hend : ∃ r, c = '*' ∧ body = '/' :: r
    · obtain ⟨r, rfl, rfl⟩ := hend
      exact ⟨r, rfl⟩
    · have hlater := (commentEnd_infix_cons_iff.mp h).resolve_left hend
      obtain ⟨left, hleft⟩ := ih hlater
      refine ⟨left, ?_⟩
      rw [List.cons_append, afterComment_cons ?_, hleft]
      intro r hc hr
      cases body with
      | nil => exact absurd (List.eq_nil_of_infix_nil hlater) (List.cons_ne_nil _ _)
      | cons b body => exact hend ⟨body, hc, by rw [(List.cons.inj hr).1]⟩

theorem afterComment_of_not_infix (h : ¬['*', '/'] <:+: body) (rest : List Char) :
    afterComment (body ++ ' ' :: '*' :: '/' :: rest) = some rest := by
  induction body with
  | nil => rfl
  | cons c body ih =>
    rw [commentEnd_infix_cons_iff, not_or] at h
    rw [List.cons_append, afterComment_cons ?_, ih h.2]
    intro r hc hr
    cases body with
    | nil => exact absurd (List.cons.inj hr).1 (by decide)
    | cons b body => exact h.1 ⟨body, hc, by rw [(List.cons.inj hr).1]⟩

/-- A comment ends where its template ends it exactly if its body does not hold the end of one. -/
theorem afterComment_wrapped_iff (body rest : List Char) :
    afterComment (body ++ ' ' :: '*' :: '/' :: rest) = some rest ↔ ¬['*', '/'] <:+: body := by
  refine ⟨fun hend hinfix => ?_, fun h => afterComment_of_not_infix h rest⟩
  obtain ⟨left, hleft⟩ := afterComment_of_infix hinfix (' ' :: '*' :: '/' :: rest)
  have hlength := congrArg List.length (Option.some.inj (hleft.symm.trans hend))
  simp only [List.length_append, List.length_cons] at hlength
  omega

/-- A text without quotes, backslashes and line feeds ends where its template ends it exactly if no
carriage return ends its line. -/
theorem afterText_wrapped_iff (h : ∀ c ∈ body, c ≠ '\'' ∧ c ≠ '\\' ∧ c ≠ '\n') (rest : List Char) :
    afterText (body ++ '\'' :: rest) = some rest ↔ '\r' ∉ body := by
  induction body with
  | nil => simp [afterText]
  | cons c body ih =>
    obtain ⟨hquote, hbackslash, hline⟩ := h c List.mem_cons_self
    have hstep : afterText (c :: (body ++ '\'' :: rest)) =
        if c = '\n' ∨ c = '\r' then none else afterText (body ++ '\'' :: rest) := by
      rw [afterText]
      · exact hquote
      · exact fun _ _ hc _ => hbackslash hc
    rw [List.cons_append, hstep]
    by_cases hreturn : c = '\r'
    · simp [hreturn]
    · rw [if_neg (not_or.mpr ⟨hline, hreturn⟩), ih fun a ha => h a (List.mem_cons_of_mem c ha),
        List.mem_cons, not_or]
      exact ⟨fun hbody => ⟨Ne.symm hreturn, hbody⟩, fun hboth => hboth.2⟩

/-! ## What an engine accepts -/

namespace Dialect

theorem holdsCommentEnd_iff (cs : List Char) :
    holdsCommentEnd cs = true ↔ ['*', '/'] <:+: cs := by
  fun_induction holdsCommentEnd cs with
  | case1 rest => exact ⟨fun _ => ⟨[], rest, rfl⟩, fun _ => rfl⟩
  | case2 c rest hnot ih =>
    rw [ih, commentEnd_infix_cons_iff]
    refine ⟨.inr, fun h => h.resolve_left ?_⟩
    rintro ⟨r, hc, hr⟩
    exact hnot r hc hr
  | case3 => simp

theorem keepsToken_javaScript_iff (token : String) :
    keepsToken .javaScript token = true ↔ ¬Rejoins token.toList := by
  have hclean : (cleanToken token).toList = cleanChars token.toList := String.toList_ofList
  rw [← infix_cleanChars_iff, ← hclean, ← holdsCommentEnd_iff]
  simp [keepsToken]

theorem keepsToken_python_iff (token : String) :
    keepsToken .python token = true ↔ '\r' ∉ token.toList := by
  have hclean : (cleanToken token).toList = cleanChars token.toList := String.toList_ofList
  rw [← return_mem_cleanChars_iff, ← hclean]
  simp only [keepsToken, isQuotable, List.all_eq_true, decide_eq_true_eq]
  constructor
  · intro h hreturn
    exact (h _ hreturn).2.2.2 rfl
  · intro h c hc
    obtain ⟨hquote, hbackslash, hline⟩ := ne_of_mem_cleanChars (hclean ▸ hc)
    exact ⟨hquote, hbackslash, hline, fun hreturn => h (hreturn ▸ hc)⟩

end Dialect

/-! ## Wrapped operators -/

/-- The comment that a JavaScript expression opens ends before the operand, unless the cleaned token
ends it. -/
theorem comment_closes_iff (token : String) (operand : Expr) :
    ∃ opened, ((Expr.inert token operand).text .javaScript).toList = ['/', '*'] ++ opened ∧
      (afterComment opened = some (' ' :: (operand.text .javaScript).toList) ↔
        ¬Rejoins token.toList) := by
  refine ⟨' ' :: cleanChars token.toList ++ ' ' :: '*' :: '/' :: ' ' ::
    (operand.text .javaScript).toList, ?_, ?_⟩
  · simp [Expr.text, cleanToken]
  · rw [afterComment_wrapped_iff, commentEnd_infix_cons_iff, infix_cleanChars_iff]
    refine not_congr ⟨fun h => h.resolve_left ?_, .inr⟩
    rintro ⟨_, hblank, _⟩
    exact absurd hblank (by decide)

/-- The text that a Python expression opens behind its operand ends before the last bracket, unless
the token ends its line. -/
theorem text_closes_iff (token : String) (operand : Expr) :
    ∃ opened, ((Expr.inert token operand).text .python).toList =
        ("(" ++ operand.text .python ++ " if True else '").toList ++ opened ∧
      (afterText opened = some [')'] ↔ '\r' ∉ token.toList) := by
  refine ⟨cleanChars token.toList ++ '\'' :: [')'], ?_, ?_⟩
  · simp [Expr.text, cleanToken]
  · rw [afterText_wrapped_iff fun c hc => ne_of_mem_cleanChars hc, return_mem_cleanChars_iff]

/-- The token of an operator without meaning never brings a quote, a backslash or a line feed into
the script.  It brings the end of a comment exactly if cleaning makes one, by taking out all that
stood between a star and a slash, and only then a JavaScript comment ends elsewhere than before the
operand.  A Python text ends elsewhere than before the last bracket only if the token holds a
carriage return.  Engines accept the token exactly where it stays wrapped. -/
theorem inert_wrapper_closes_iff (token : String) (operand : Expr) :
    (∀ c ∈ (cleanToken token).toList, c ≠ '\'' ∧ c ≠ '\\' ∧ c ≠ '\n') ∧
    (['*', '/'] <:+: (cleanToken token).toList ↔ Rejoins token.toList) ∧
    (∃ opened, ((Expr.inert token operand).text .javaScript).toList = ['/', '*'] ++ opened ∧
      (afterComment opened = some (' ' :: (operand.text .javaScript).toList) ↔
        ¬Rejoins token.toList)) ∧
    (∃ opened, ((Expr.inert token operand).text .python).toList =
        ("(" ++ operand.text .python ++ " if True else '").toList ++ opened ∧
      (afterText opened = some [')'] ↔ '\r' ∉ token.toList)) ∧
    (Dialect.keepsToken .javaScript token = true ↔ ¬Rejoins token.toList) ∧
    (Dialect.keepsToken .python token = true ↔ '\r' ∉ token.toList) := by
  have hclean : (cleanToken token).toList = cleanChars token.toList := String.toList_ofList
  rw [hclean]
  exact ⟨fun c hc => ne_of_mem_cleanChars hc, infix_cleanChars_iff _,
    comment_closes_iff token operand, text_closes_iff token operand,
    Dialect.keepsToken_javaScript_iff token, Dialect.keepsToken_python_iff token⟩

/-- The operator `*'/` is shown as the end of a comment: the quote between its two other characters
is taken out.  The comment around it ends there, and its own end is left over as code. -/
theorem quote_parts_comment_end :
    ['*', '/'] <:+: (cleanToken "*'/").toList ∧
    ((Expr.inert "*'/" (.read (.binding "b"))).text .javaScript = "/* */ */ V_b" ∧
      afterComment " */ */ V_b".toList = some " */ V_b".toList) ∧
    Dialect.keepsToken .javaScript "*'/" = false := by
  refine ⟨⟨[], [], ?_⟩, ⟨?_, ?_⟩, ?_⟩ <;> decide

end ShaderScript
