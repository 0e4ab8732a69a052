import AwkStartup.Proofs.CommandLine.Accesses
import AwkStartup.Proofs.CommandLine.Assignments
import AwkStartup.StandardLibraries

/-!
# Separators of a single character

A separator of a single character is a space, or a pattern that matches this character. The
characters that are taken literally are those that mean something in patterns, except for the
backslash and the opening brace: these two are no patterns when they stand alone, and they are
refused.
-/

namespace AwkStartup

namespace Pattern

def Reading.first : Reading :=
  ⟨⟨false, true⟩, [], [], [], []⟩

/-- The signs with a meaning are those that separators take literally, the backslash and the
opening brace. Every other character is read as itself. -/
theorem step?_ordinary {c : Char} (hsign : c ∉ Separator.literalSigns) (hbackslash : c ≠ '\\')
    (hbrace : c ≠ '\x7b') (r : Reading) (s : List Char) :
    step? r c s =
      (atomAsPiece? r.mode (.literal c)).map fun shape => (r.push shape, s) := by
  simp only [Separator.literalSigns, List.mem_cons, List.not_mem_nil, or_false, not_or] at hsign
  unfold step?
  split <;> simp_all

theorem readEscape?_sign {c : Char} (hsign : c ∈ Separator.literalSigns) (m : Mode)
    (s : List Char) : readEscape? m (c :: s) = some (.literal c, s) := by
  simp only [Separator.literalSigns, List.mem_cons, List.not_mem_nil, or_false] at hsign
  rcases hsign with rfl | rfl | rfl | rfl | rfl | rfl | rfl | rfl | rfl | rfl | rfl <;> rfl

theorem shape?_of_step {c d : Char} {s : List Char}
    (h : step? .first d s = some (Reading.first.push ⟨0, c.utf8Size * stateWeight⟩, [])) :
    shape? (d :: s) = some ⟨0, c.utf8Size * stateWeight⟩ := by
  have hread : readAll? (s.length + 2) .first (d :: s) =
      some (Reading.first.push ⟨0, c.utf8Size * stateWeight⟩) := by
    change (step? .first d s).bind _ = _
    rw [h]
    rfl
  change (readAll? (s.length + 2) .first (d :: s)).bind _ = _
  rw [hread]
  rfl

theorem verdict_of_shape? {c : Char} {s : List Char}
    (h : shape? s = some ⟨0, c.utf8Size * stateWeight⟩) : verdict s = .accepted := by
  have hsize := c.utf8Size_le_four
  have hweight : ¬ weightLimit < c.utf8Size * stateWeight := by
    simp only [weightLimit, stateWeight]
    omega
  rw [verdict, h]
  simp only [if_neg hweight]
  rfl

theorem verdict_ordinary {c : Char} (hsign : c ∉ Separator.literalSigns) (hbackslash : c ≠ '\\')
    (hbrace : c ≠ '\x7b') : verdict [c] = .accepted := by
  apply verdict_of_shape? (c := c)
  apply shape?_of_step
  rw [step?_ordinary hsign hbackslash hbrace]
  rfl

theorem verdict_escaped {c : Char} (hsign : c ∈ Separator.literalSigns) :
    verdict ['\\', c] = .accepted := by
  apply verdict_of_shape? (c := c)
  apply shape?_of_step
  change (readEscape? _ [c]).bind _ = _
  rw [readEscape?_sign hsign]
  rfl

end Pattern

/-- What libraries say of patterns of one character. The signs that separators take literally are
escaped with a backslash; of the others, the backslash and the opening brace are no patterns. -/
structure Libraries.ReadsCharacters [Libraries] : Prop where
  escape_sign : ∀ c ∈ Separator.literalSigns,
    escape (String.singleton c) = String.ofList ['\\', c]
  escaped : ∀ c ∈ Separator.literalSigns, patternFault? (String.ofList ['\\', c]) = none
  ordinary : ∀ c, c ∉ Separator.literalSigns → c ≠ '\\' → c ≠ '\x7b' →
    patternFault? (String.singleton c) = none
  backslash : patternFault? "\\" ≠ none
  brace : patternFault? "\x7b" ≠ none

theorem Libraries.readsCharacters_standard (accountHome : Option String) :
    @ReadsCharacters (standard accountHome) := by
  refine @ReadsCharacters.mk (standard accountHome) ?_ ?_ ?_ ?_ ?_
  · intro c hc
    change Pattern.escape _ = _
    simp only [Separator.literalSigns, List.mem_cons, List.not_mem_nil, or_false] at hc
    rcases hc with rfl | rfl | rfl | rfl | rfl | rfl | rfl | rfl | rfl | rfl | rfl <;> decide
  · intro c hc
    change Pattern.fault? _ = none
    rw [Pattern.fault?, String.toList_ofList, Pattern.verdict_escaped hc]
  · intro c hsign hbackslash hbrace
    change Pattern.fault? _ = none
    rw [Pattern.fault?, String.toList_singleton, Pattern.verdict_ordinary hsign hbackslash hbrace]
  · change Pattern.fault? _ ≠ none
    decide
  · change Pattern.fault? _ ≠ none
    decide

namespace Separator

/-- The separator of a single character that is a pattern: blanks for a space, and else the
character, behind a backslash when it is a sign. -/
def ofCharacter (c : Char) : Separator :=
  if c = ' ' then .blanks
  else if c ∈ literalSigns then .pattern (String.ofList ['\\', c])
  else .pattern (String.ofList [c])

variable [Libraries]

theorem cast_singleton (hreads : Libraries.ReadsCharacters) {c : Char} (hbackslash : c ≠ '\\')
    (hbrace : c ≠ '\x7b') : cast (String.singleton c) = .ok (ofCharacter c) := by
  unfold cast ofCharacter patternText
  rw [String.toList_singleton]
  by_cases hspace : c = ' '
  · subst hspace
    rfl
  by_cases hsign : c ∈ literalSigns
  · simp only [hspace, hsign, if_true, if_false, hreads.escape_sign c hsign,
      hreads.escaped c hsign, List.cons.injEq, false_and, imp_self]
  · simp only [hspace, hsign, if_false, hreads.ordinary c hsign hbackslash hbrace,
      ← String.singleton_eq_ofList, List.cons.injEq, false_and, imp_self]

theorem exists_cast_singleton_refused (hreads : Libraries.ReadsCharacters) {c : Char}
    (h : c = '\\' ∨ c = '\x7b') :
    ∃ description, Libraries.patternFault? (String.singleton c) = some description ∧
      cast (String.singleton c) = .error description := by
  obtain ⟨description, hfault⟩ :
      ∃ description, Libraries.patternFault? (String.singleton c) = some description := by
    rcases h with rfl | rfl
    · exact Option.ne_none_iff_exists'.mp hreads.backslash
    · exact Option.ne_none_iff_exists'.mp hreads.brace
  have hrefused : IsRefused (String.singleton c) description := by
    rcases h with rfl | rfl
    · exact ⟨by decide, by decide, hfault⟩
    · exact ⟨by decide, by decide, hfault⟩
  exact ⟨description, hfault, cast_eq_error_iff.mpr hrefused⟩

end Separator

namespace CommandLine

variable {features : Features} {keywords : Keywords} {policy : LongOptionPolicy}
  {globals : Globals} {args : List String} {p : Progress} {item : Item} {text : String}

/-- An option whose decoded text is for the separator, and the scalar that it binds to FS: the
separator switch, and an assignment to FS when FS may be assigned to. -/
inductive Item.IsForSeparator (globals : Globals) (item : Item) (decoded : String) : Cell → Prop
  | switch {raw : String} : item.option? = some (.separator, raw) →
      Text.unescape raw = decoded → IsForSeparator globals item decoded (.string decoded)
  | assignment {raw : String} : item.option? = some (.assign, "FS=" ++ raw) →
      isAssignable globals "FS" = true → Text.unescape raw = decoded →
      IsForSeparator globals item decoded (.maybeNumeric decoded)

theorem assignment?_fs (raw : String) : assignment? ("FS=" ++ raw) = some ("FS", raw) :=
  (assignment?_eq_some_iff _ _ _).mpr ⟨rfl, by decide, by decide⟩

section Applying

variable [Libraries] {description : String}

theorem Item.IsForSeparator.applyAll_eq {cell : Cell} (h : item.IsForSeparator p.globals text cell)
    (keywords : Keywords) :
    applyAll p (item.directives keywords) =
      match Separator.cast text with
      | .ok separator => ((p.bind "FS" cell).call (.separator separator), none)
      | .error description => (p, some (.fieldSeparator text description)) := by
  cases h with
  | switch hoption htext =>
    rw [Item.directives_of_option? hoption]
    simp only [switchDirectives, applyAll, apply, setSeparator, castSeparator, htext]
    cases Separator.cast text <;> rfl
  | assignment hoption hfree htext =>
    rw [Item.directives_of_option? hoption]
    simp only [switchDirectives, applyAll, apply, assign, assignment?_fs, hfree, castSeparator,
      htext]
    cases Separator.cast text <;> rfl

theorem cast_of_apply_error {d : Directive}
    (h : apply p d = .error (.fieldSeparator text description)) :
    Separator.cast text = .error description := by
  obtain ⟨value, hfault⟩ | ⟨name, hfault⟩ | ⟨value, cause, hcast, hfault⟩ := apply_error_cases h
  · cases hfault
  · cases hfault
  · cases hfault
    exact hcast

theorem cast_of_item_error
    (h : (applyAll p (item.directives keywords)).2 = some (.fieldSeparator text description)) :
    Separator.cast text = .error description := by
  rcases Item.directives_cases keywords item with hsafe | ⟨d, hd⟩
  · obtain ⟨q, hq⟩ := applyAll_ok_of_not_canFail p hsafe
    rw [hq] at h
    cases h
  · rw [hd] at h
    cases happly : apply p d with
    | error fault =>
      rw [applyAll_cons_error happly] at h
      cases h
      exact cast_of_apply_error happly
    | ok q =>
      rw [applyAll_cons_ok happly] at h
      cases h

theorem cast_of_dispatch_error
    (h : (dispatch features policy globals args).outcome =
      .error (.fieldSeparator text description)) :
    Separator.cast text = .error description := by
  obtain ⟨k, site, hfails⟩ := exists_failsAt h
  cases hfails with
  | @intro program items rest p fault site hthrough happly hoption =>
    cases hoption with
    | refused htoken =>
      have hbad := Token.fault_of_refused htoken
      unfold badOption at hbad
      split_ifs at hbad
    | value hfits hitem => exact cast_of_item_error hitem
    | candidate hfits hgroup hround hending =>
      obtain ⟨option, hmissing⟩ := Group.exists_of_refused_round hround hending
      cases hmissing

/-- A single character is a separator unless it is a backslash or an opening brace. Behind a
separator switch and behind an assignment to FS, glued or separate and spelled with any escapes,
it binds FS to the character and sets the separator to blanks for a space, to the pattern of the
character itself, or for a sign to its escape, which is read as this character. No command line
fails for such a separator. The backslash and the opening brace are refused in both places, with
what is wrong with them as patterns. -/
theorem single_character_separators (hreads : Libraries.ReadsCharacters) (c : Char) :
    (c ≠ '\\' ∧ c ≠ '\x7b' →
      (∀ keywords p item cell, Item.IsForSeparator p.globals item (String.singleton c) cell →
        applyAll p (item.directives keywords) =
          ((p.bind "FS" cell).call (.separator (Separator.ofCharacter c)), none)) ∧
      ∀ features policy globals args description,
        (dispatch features policy globals args).outcome ≠
          .error (.fieldSeparator (String.singleton c) description)) ∧
    (c ∈ Separator.literalSigns → ∀ mode rest,
      Pattern.readEscape? mode (c :: rest) = some (.literal c, rest)) ∧
    (c = '\\' ∨ c = '\x7b' →
      ∃ description, Libraries.patternFault? (String.singleton c) = some description ∧
        ∀ keywords p item cell, Item.IsForSeparator p.globals item (String.singleton c) cell →
          applyAll p (item.directives keywords) =
            (p, some (.fieldSeparator (String.singleton c) description))) := by
  refine ⟨?_, Pattern.readEscape?_sign, ?_⟩
  · rintro ⟨hbackslash, hbrace⟩
    have hcast := Separator.cast_singleton hreads hbackslash hbrace
    refine ⟨?_, ?_⟩
    · intro keywords p item cell hitem
      rw [hitem.applyAll_eq, hcast]
    · intro features policy globals args description hfails
      rw [cast_of_dispatch_error hfails] at hcast
      cases hcast
  · intro h
    obtain ⟨description, hfault, hcast⟩ := Separator.exists_cast_singleton_refused hreads h
    refine ⟨description, hfault, ?_⟩
    intro keywords p item cell hitem
    rw [hitem.applyAll_eq, hcast]

end Applying

/-- A point that is spelled as an octal escape, and a lone backslash. -/
theorem single_character_separators_point :
    Libraries.ReadsCharacters ∧
      applyAll (.start Globals.initial)
          ((Item.glued .separator "\\056").directives (ImplementationOption.table .plain)) =
        (((Progress.start Globals.initial).bind "FS" (.string ".")).call
          (.separator (.pattern "\\.")), none) ∧
      ∃ description, Libraries.patternFault? "\\" = some description ∧
        applyAll (.start Globals.initial)
            ((Item.separate .assign "FS=\\").directives (ImplementationOption.table .plain)) =
          (.start Globals.initial, some (.fieldSeparator "\\" description)) := by
  have hreads : Libraries.ReadsCharacters := Libraries.readsCharacters_standard none
  obtain ⟨hpoint, -, -⟩ := single_character_separators hreads '.'
  obtain ⟨-, -, hbackslash⟩ := single_character_separators hreads '\\'
  obtain ⟨description, hfault, hrefused⟩ := hbackslash (Or.inl rfl)
  refine ⟨hreads, ?_, description, hfault, ?_⟩
  · exact (hpoint (by decide)).1 _ _ _ _ (.switch rfl (by decide))
  · have hoption : (Item.separate .assign "FS=\\").option? = some (.assign, "FS=" ++ "\\") := rfl
    exact hrefused _ _ _ _ (.assignment hoption (by decide) (by decide))

-- An octal escape of a sign is decoded first, and the sign is then taken literally.
example : (dispatch .plain .reject Globals.initial ["awk", "-F\\056", "prog"]).progress.calls =
    [.separator (.pattern "\\.")] := by decide

/-- A lone backslash and a lone opening brace stop the run, behind a switch and in an assignment. -/
theorem backslash_and_brace_stop_runs :
    Text.unescape "\\" = String.singleton '\\' ∧
    (∃ description, dispatch .plain .reject Globals.initial ["awk", "-F", "\\", "prog"] =
      ⟨.error (.fieldSeparator "\\" description), .start Globals.initial⟩) ∧
    Text.unescape "\x7b" = String.singleton '\x7b' ∧
    ∃ description, dispatch .plain .reject Globals.initial ["awk", "-vFS=\x7b", "prog"] =
      ⟨.error (.fieldSeparator "\x7b" description), .start Globals.initial⟩ :=
  ⟨by decide, ⟨_, rfl⟩, by decide, _, rfl⟩

end CommandLine

end AwkStartup
