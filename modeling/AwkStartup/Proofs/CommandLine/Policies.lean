import AwkStartup.Proofs.CommandLine.Shifting
import AwkStartup.StandardLibraries

/-!
# Policies for long options

Only long options that are reached as options are treated by a policy. Before the first of them all
policies do the same. There two of the policies fail, and the other two go on and differ in one
remark.
-/

namespace AwkStartup
namespace CommandLine

def Item.isSwitch : Item → Bool
  | skipped _ _ => false
  | _ => true

variable {features : Features} {keywords : Keywords} {policy : LongOptionPolicy}
  {globals : Globals} {args : List String} {items : List Item}

theorem Item.isSwitch_of_fits_reject {item : Item} (h : item.Fits .reject) :
    item.isSwitch = true := by
  cases item with
  | skipped token reported =>
    have hskipped : Token.of .reject token = .skipped reported := h
    rw [Token.of_long (Token.long_of_skipped hskipped)] at hskipped
    cases hskipped
  | glued switch value => rfl
  | separate switch value => rfl

theorem Item.Through.of_reject {item : Item} (h : item.Through keywords .reject)
    (policy : LongOptionPolicy) : item.Through keywords policy := by
  obtain ⟨hfits, hending⟩ := h
  cases item with
  | skipped token reported => cases Item.isSwitch_of_fits_reject hfits
  | glued switch value => exact ⟨hfits, hending⟩
  | separate switch value => exact ⟨trivial, hending⟩

theorem Item.not_long_of_tokens {item : Item} (hswitch : item.isSwitch = true) {token : String}
    {more rest : List String} (h : item.tokens ++ more = token :: rest) :
    isLongOption token = false := by
  have hletter (switch : Switch) (s : List Char) :
      isLongOption (String.ofList ('-' :: switch.letter :: s)) = false := by
    rw [Bool.eq_false_iff]
    intro hlong
    exact switch.letter_ne_hyphen ((isLongOption_ofList_iff _ s).mp hlong).1
  cases item with
  | skipped token reported => cases hswitch
  | glued switch value =>
    obtain ⟨rfl, -⟩ := List.cons.inj h
    exact hletter switch value.toList
  | separate switch value =>
    obtain ⟨rfl, -⟩ := List.cons.inj h
    exact hletter switch []

theorem Item.isIgnoredLong_of_isSwitch {item : Item} (hswitch : item.isSwitch = true)
    {d : Directive} (hd : d ∈ item.directives keywords) : d.isIgnoredLong = false := by
  cases item with
  | skipped token reported => cases hswitch
  | glued switch value | separate switch value =>
    cases switch with
    | implementation =>
      exact Directive.isIgnoredLong_of_isOfGroup (Group.isOfGroup_of_mem_read hd)
    | separator | assign | programFile =>
      obtain rfl := List.mem_singleton.mp hd
      rfl

theorem Stops.of_not_long {index : Nat} {rest : List String} {last : List Item} {ending : Ending}
    (h : Stops keywords policy index rest last ending)
    (hrest : ∀ token more, rest = token :: more → isLongOption token = false)
    (other : LongOptionPolicy) : Stops keywords other index rest last ending := by
  have hfits {item : Item} {more : List String} (hitem : item.Fits policy)
      (hmore : rest = item.tokens ++ more) : item.Fits other := by
    cases item with
    | skipped token reported =>
      have hlong := Token.long_of_skipped hitem
      rw [hrest token more hmore] at hlong
      cases hlong
    | glued switch value => exact hitem
    | separate switch value => trivial
  cases h with
  | exhausted => exact .exhausted
  | operand hoperand =>
    rw [Token.of_eq_of_not_long (hrest _ _ rfl) policy other] at hoperand
    exact .operand hoperand
  | hyphen => exact .hyphen
  | terminator => exact .terminator
  | refused hrefused =>
    rw [Token.of_eq_of_not_long (hrest _ _ rfl) policy other] at hrefused
    exact .refused hrefused
  | lacking => exact .lacking
  | exec hitem hexec => exact .exec (hfits hitem rfl) hexec
  | usage hitem husage => exact .usage (hfits hitem rfl) husage
  | faulty hitem hfaulty => exact .faulty (hfits hitem rfl) hfaulty

/-- Reading that stops before a token that is not long, behind switches, is the same under every
policy. -/
theorem StopsAfter.of_not_long {index : Nat} {tokens rest : List String} {last : List Item}
    {ending : Ending} (h : StopsAfter keywords .reject index tokens items rest last ending)
    (hrest : ∀ token more, rest = token :: more → isLongOption token = false)
    (policy : LongOptionPolicy) : StopsAfter keywords policy index tokens items rest last ending := by
  refine ⟨h.tokens_eq, ?_, h.stops.of_not_long hrest policy⟩
  intro item hitem
  exact (h.through item hitem).of_reject policy

def Item.silenced : Item → Item
  | skipped token _ => skipped token false
  | item => item

theorem Stops.not_long_of_warn {index : Nat} {rest : List String} {last : List Item}
    {ending : Ending} (h : Stops keywords .warn index rest last ending) {token : String}
    {more : List String} (hrest : rest = token :: more) : isLongOption token = false := by
  rw [Bool.eq_false_iff]
  intro hlong
  have hskipped : (Item.skipped token true).Through keywords .warn := ⟨Token.of_long hlong _, rfl⟩
  rw [hrest] at h
  exact h.not_through hskipped

theorem spelled_silenced (items : List Item) :
    spelled (items.map Item.silenced) = spelled items := by
  rw [spelled, spelled, List.flatMap_map]
  congr 1
  funext item
  cases item <;> rfl

theorem Item.Through.silenced {item : Item} (h : item.Through keywords .warn) :
    item.silenced.Through keywords .ignore := by
  obtain ⟨hfits, hending⟩ := h
  cases item with
  | skipped token reported => exact ⟨Token.of_long (Token.long_of_skipped hfits) _, rfl⟩
  | glued switch value => exact ⟨hfits, hending⟩
  | separate switch value => exact ⟨trivial, hending⟩

theorem StopsAfter.silenced {index : Nat} {tokens rest : List String} {last : List Item}
    {ending : Ending} (h : StopsAfter keywords .warn index tokens items rest last ending) :
    StopsAfter keywords .ignore index tokens (items.map Item.silenced) rest last ending := by
  have hthrough : ∀ item ∈ items.map Item.silenced, item.Through keywords .ignore := by
    intro item hitem
    obtain ⟨original, horiginal, rfl⟩ := List.mem_map.mp hitem
    exact (h.through original horiginal).silenced
  refine ⟨?_, hthrough, ?_⟩
  · rw [spelled_silenced, h.tokens_eq]
  · rw [spelled_silenced]
    exact h.stops.of_not_long (fun _ _ => h.stops.not_long_of_warn) .ignore

theorem filter_directives_of_isSwitch {item : Item} (hswitch : item.isSwitch = true) :
    (item.directives keywords).filter (fun d => !d.isIgnoredLong) = item.directives keywords := by
  rw [List.filter_eq_self]
  intro d hd
  rw [Item.isIgnoredLong_of_isSwitch hswitch hd]
  rfl

theorem directives_silenced (items : List Item) :
    (items.map Item.silenced).flatMap (Item.directives keywords) =
      (items.flatMap (Item.directives keywords)).filter fun d => !d.isIgnoredLong := by
  induction items with
  | nil => rfl
  | cons item items ih =>
    rw [List.map_cons, List.flatMap_cons, List.flatMap_cons, List.filter_append, ih]
    cases item with
    | skipped token reported => cases reported <;> rfl
    | glued switch value =>
      rw [filter_directives_of_isSwitch rfl]
      rfl
    | separate switch value =>
      rw [filter_directives_of_isSwitch rfl]
      rfl

/-- Ignoring long options asks for the same as warning of them, apart from the reports. -/
theorem readFrom_ignore (keywords : Keywords) (index : Nat) (tokens : List String) :
    (readFrom keywords .ignore index tokens).directives keywords =
        ((readFrom keywords .warn index tokens).directives keywords).filter
          (fun d => !d.isIgnoredLong) ∧
      (readFrom keywords .ignore index tokens).ending =
        (readFrom keywords .warn index tokens).ending := by
  obtain ⟨items, rest, last, ending, h⟩ := exists_stopsAfter keywords .warn index tokens
  rw [h.readFrom_eq, h.silenced.readFrom_eq]
  refine ⟨?_, rfl⟩
  have hlast : last.map Item.silenced = last.map id := by
    apply List.map_congr_left
    intro item hitem
    cases item with
    | skipped token reported => exact absurd rfl (h.stops.ending_ne_through hitem)
    | glued switch value => rfl
    | separate switch value => rfl
  rw [List.map_id] at hlast
  rw [Reading.directives, Reading.directives, ← directives_silenced, List.map_append, hlast]

section Runs

variable [Libraries]

/-- A long option stands behind options that are gone through and applied. -/
structure LongAfter (features : Features) (policy : LongOptionPolicy) (globals : Globals)
    (args : List String) (items : List Item) (token : String) : Prop where
  args_eq : ∃ name rest, args = name :: (spelled items ++ token :: rest)
  through : ∀ item ∈ items, item.Through (ImplementationOption.table features) policy
  applied : ∃ p, applyAll (Progress.start globals)
    (items.flatMap (Item.directives (ImplementationOption.table features))) = (p, none)
  long : isLongOption token = true

/-- A run reaches a long option as an option, at an index of the command line. -/
def ReachesLong (features : Features) (policy : LongOptionPolicy) (globals : Globals)
    (args : List String) (k : Nat) (token : String) : Prop :=
  ∃ items, LongAfter features policy globals args items token ∧ k = (spelled items).length + 1

/-- A run reaches this long option before any other. -/
def ReachesFirst (features : Features) (policy : LongOptionPolicy) (globals : Globals)
    (args : List String) (k : Nat) (token : String) : Prop :=
  ReachesLong features policy globals args k token ∧
    ∀ j other, ReachesLong features policy globals args j other → k ≤ j

theorem LongAfter.exists_more {name : String} {rest : List String} {others : List Item}
    {token : String}
    (h : LongAfter features policy globals (name :: (spelled items ++ rest)) others token)
    (hitems : ∀ item ∈ items, item.Through (ImplementationOption.table features) .reject) :
    ∃ more rest', others = items ++ more ∧ rest = spelled more ++ token :: rest' := by
  obtain ⟨name', rest', hargs⟩ := h.args_eq
  have hfits : ∀ item ∈ items, item.Fits policy := by
    intro item hitem
    exact ((hitems item hitem).of_reject policy).fits
  have hothers : ∀ item ∈ others, item.Fits policy := by
    intro item hitem
    exact (h.through item hitem).fits
  rcases spelled_cases hfits hothers (List.cons.inj hargs).2 with
    ⟨more, rfl, hrest⟩ | ⟨item, more, rfl, hrest⟩
  · exact ⟨more, rest', rfl, hrest⟩
  · have hitem := hitems item (List.mem_append_right _ List.mem_cons_self)
    have hswitch := Item.isSwitch_of_fits_reject hitem.fits
    have hlong := Item.not_long_of_tokens hswitch hrest.symm
    rw [h.long] at hlong
    cases hlong

/-- The first long option of some tokens that is reached: only switches stand before it, and they
are gone through and applied. -/
structure FirstLong (features : Features) (globals : Globals) (tokens : List String)
    (items : List Item) (token : String) (rest : List String) (p : Progress) : Prop where
  tokens_eq : tokens = spelled items ++ token :: rest
  through : ∀ item ∈ items, item.Through (ImplementationOption.table features) .reject
  applied : applyAll (Progress.start globals)
    (items.flatMap (Item.directives (ImplementationOption.table features))) = (p, none)
  long : isLongOption token = true

theorem not_reachesLong_of_error {name : String} {rest : List String} {p : Progress}
    {fault : StartupError}
    (hthrough : ∀ item ∈ items, item.Through (ImplementationOption.table features) .reject)
    (happly : applyAll (Progress.start globals)
      (items.flatMap (Item.directives (ImplementationOption.table features))) = (p, some fault))
    (policy : LongOptionPolicy) (k : Nat) (token : String) :
    ¬ ReachesLong features policy globals (name :: (spelled items ++ rest)) k token := by
  rintro ⟨others, hlong, -⟩
  obtain ⟨more, rest', rfl, -⟩ := hlong.exists_more hthrough
  obtain ⟨q, hq⟩ := hlong.applied
  rw [List.flatMap_append, applyAll_append_of_error happly] at hq
  cases hq

theorem StopsAfter.not_reachesLong {index : Nat} {tokens rest : List String} {last : List Item}
    {ending : Ending}
    (h : StopsAfter (ImplementationOption.table features) .reject index tokens items rest last
      ending)
    (hrest : ∀ token more, rest = token :: more → isLongOption token = false) {name : String}
    (policy : LongOptionPolicy) (k : Nat) (token : String) :
    ¬ ReachesLong features policy globals (name :: tokens) k token := by
  rintro ⟨others, hlong, -⟩
  rw [h.tokens_eq] at hlong
  obtain ⟨more, rest', rfl, hmore⟩ := hlong.exists_more h.through
  cases more with
  | nil =>
    have htoken := hrest token rest' hmore
    rw [hlong.long] at htoken
    cases htoken
  | cons item more =>
    have hitem := hlong.through item (List.mem_append_right _ List.mem_cons_self)
    have hhere := h.stops.of_not_long hrest policy
    rw [hmore, spelled_cons, List.append_assoc] at hhere
    exact hhere.not_through hitem

/-- Either no long option is reached and the policy does not matter, or there is a first one. -/
theorem firstLong_cases (features : Features) (globals : Globals) (name : String)
    {tokens : List String} (hne : tokens ≠ []) :
    ((∀ policy k token, ¬ ReachesLong features policy globals (name :: tokens) k token) ∧
      ∀ policy other, dispatch features policy globals (name :: tokens) =
        dispatch features other globals (name :: tokens)) ∨
      ∃ items token rest p, FirstLong features globals tokens items token rest p := by
  obtain ⟨items, rest, last, ending, hstops⟩ :=
    exists_stopsAfter (ImplementationOption.table features) .reject 1 tokens
  have hthrough (policy : LongOptionPolicy) :
      ∀ item ∈ items, item.Through (ImplementationOption.table features) policy := by
    intro item hitem
    exact (hstops.through item hitem).of_reject policy
  cases happly : applyAll (Progress.start globals)
      (items.flatMap (Item.directives (ImplementationOption.table features))) with
  | mk p failed =>
    cases failed with
    | some fault =>
      -- One of the switches fails before any long option is reached.
      obtain rfl := hstops.tokens_eq
      refine Or.inl ⟨not_reachesLong_of_error hstops.through happly, ?_⟩
      intro policy other
      rw [dispatch_spelled_error (hthrough policy) happly hne,
        dispatch_spelled_error (hthrough other) happly hne]
    | none =>
      by_cases hrest : ∃ token more, rest = token :: more ∧ isLongOption token = true
      · obtain ⟨token, more, rfl, hlong⟩ := hrest
        exact Or.inr ⟨items, token, more, p, hstops.tokens_eq, hstops.through, happly, hlong⟩
      · have hnot : ∀ token more, rest = token :: more → isLongOption token = false := by
          intro token more hmore
          rw [Bool.eq_false_iff]
          intro hlong
          exact hrest ⟨token, more, hmore, hlong⟩
        refine Or.inl ⟨hstops.not_reachesLong hnot, ?_⟩
        intro policy other
        rw [dispatch_eq_run hne, dispatch_eq_run hne, read, read,
          (hstops.of_not_long hnot policy).readFrom_eq, (hstops.of_not_long hnot other).readFrom_eq]

section First

variable {tokens rest : List String} {token : String} {p : Progress}

theorem FirstLong.through_all (h : FirstLong features globals tokens items token rest p)
    (policy : LongOptionPolicy) :
    ∀ item ∈ items, item.Through (ImplementationOption.table features) policy := by
  intro item hitem
  exact (h.through item hitem).of_reject policy

theorem FirstLong.reachesFirst (h : FirstLong features globals tokens items token rest p)
    (policy : LongOptionPolicy) (name : String) :
    ReachesFirst features policy globals (name :: tokens) ((spelled items).length + 1) token := by
  constructor
  · refine ⟨items, ⟨⟨name, rest, ?_⟩, h.through_all policy, ⟨p, h.applied⟩, h.long⟩, rfl⟩
    rw [h.tokens_eq]
  · rintro j other ⟨others, hother, rfl⟩
    rw [h.tokens_eq] at hother
    obtain ⟨more, rest', rfl, -⟩ := hother.exists_more h.through
    rw [spelled_append, List.length_append]
    omega

theorem FirstLong.dispatch_eq (h : FirstLong features globals tokens items token rest p)
    (policy : LongOptionPolicy) (name : String) :
    dispatch features policy globals (name :: tokens) =
      (readFrom (ImplementationOption.table features) policy ((spelled items).length + 1)
        (token :: rest)).runFrom (ImplementationOption.table features) p := by
  rw [h.tokens_eq]
  exact dispatch_spelled (h.through_all policy) h.applied (by simp)

theorem FirstLong.dispatch_refused (h : FirstLong features globals tokens items token rest p)
    {policy : LongOptionPolicy} (hpolicy : policy = .reject ∨ policy = .allow) (name : String) :
    dispatch features policy globals (name :: tokens) = ⟨.error (badOption token), p⟩ := by
  have htoken : Token.of policy token = .refused (badOption token) := by
    rw [Token.of_long h.long]
    rcases hpolicy with rfl | rfl
    · rfl
    · rfl
  rw [h.dispatch_eq, (Stops.refused htoken).readFrom_eq]
  rfl

end First

theorem Reading.runFrom_preceded {reading : Reading} (before : List Effect) (reported : Bool)
    (h : ∀ d ∈ reading.directives keywords, d.isIgnoredLong = false) (p : Progress) :
    reading.runFrom keywords (p.preceded before reported) =
      ⟨(reading.runFrom keywords p).outcome,
        (reading.runFrom keywords p).progress.preceded before reported⟩ := by
  have hpreceded := applyAll_preceded before reported h p
  cases happly : applyAll p (reading.directives keywords) with
  | mk q failed =>
    rw [happly] at hpreceded
    cases failed with
    | some fault => rw [runFrom_of_error happly, runFrom_of_error hpreceded]
    | none =>
      have hconclude : conclude (q.preceded before reported) reading.ending =
          conclude q reading.ending := conclude_retell q reading.ending
      rw [runFrom_of_ok happly, runFrom_of_ok hpreceded, hconclude]

theorem runFrom_warn_of_reported {p : Progress} (h : p.longReported = true) (index : Nat)
    (tokens : List String) :
    (readFrom keywords .warn index tokens).runFrom keywords p =
      (readFrom keywords .ignore index tokens).runFrom keywords p := by
  obtain ⟨hdirectives, hending⟩ := readFrom_ignore keywords index tokens
  rw [Reading.runFrom, Reading.runFrom, hdirectives, ← applyAll_of_reported h, hending]

theorem runFrom_skipped {token : String} {reported : Bool}
    (htoken : Token.of policy token = .skipped reported) {p q : Progress}
    (happly : applyAll p ((Item.skipped token reported).directives keywords) = (q, none))
    (index : Nat) (rest : List String) :
    (readFrom keywords policy index (token :: rest)).runFrom keywords p =
      (readFrom keywords policy (index + 1) rest).runFrom keywords q := by
  have hfits : (Item.skipped token reported).Fits policy := htoken
  have hread : readFrom keywords policy index (token :: rest) =
      (readFrom keywords policy (index + 1) rest).after (.skipped token reported) :=
    readFrom_item hfits index rest
  rw [hread]
  apply @Reading.runFrom_append keywords _ [.skipped token reported]
  rw [List.flatMap_singleton, happly]

/-- What a run does from its first long option on, when long options are skipped. Warned of, it adds
one remark to the effects before it, and nothing else differs. -/
theorem FirstLong.dispatch_skipped {tokens rest : List String} {token : String} {p : Progress}
    (h : FirstLong features globals tokens items token rest p) (name : String) :
    ∃ (outcome : Except StartupError Launch) (q : Progress),
      dispatch features .ignore globals (name :: tokens) =
        ⟨outcome, q.preceded p.effects false⟩ ∧
      dispatch features .warn globals (name :: tokens) =
        ⟨outcome, q.preceded (p.effects ++ [.remark (.ignoredOption token)]) true⟩ := by
  -- Nothing has been reported before the first long option.
  have hswitches : ∀ d ∈ items.flatMap (Item.directives (ImplementationOption.table features)),
      d.isIgnoredLong = false := by
    intro d hd
    obtain ⟨item, hitem, hd⟩ := List.mem_flatMap.mp hd
    exact Item.isIgnoredLong_of_isSwitch (Item.isSwitch_of_fits_reject (h.through item hitem).fits)
      hd
  have hreported : p.longReported = false := longReported_of_applyAll hswitches h.applied
  obtain ⟨clean, hbefore, hafter⟩ : ∃ clean : Progress, clean.preceded p.effects false = p ∧
      apply p (.ignoredLong token) =
        .ok (clean.preceded (p.effects ++ [.remark (.ignoredOption token)]) true) := by
    refine ⟨{ p with effects := [] }, ?_, ?_⟩
    · simp [Progress.preceded, Progress.retell, ← hreported]
    · simp [apply, hreported, Progress.preceded, Progress.retell, Progress.remark]
  -- From there on both policies ask for the same, and nothing more is reported.
  have hfilter : ∀ d ∈ (readFrom (ImplementationOption.table features) .ignore
      ((spelled items).length + 1 + 1) rest).directives (ImplementationOption.table features),
      d.isIgnoredLong = false := by
    intro d hd
    rw [(readFrom_ignore _ _ rest).1, List.mem_filter] at hd
    simpa using hd.2
  have hignore := Reading.runFrom_preceded p.effects false hfilter clean
  have hwarn := Reading.runFrom_preceded (p.effects ++ [.remark (.ignoredOption token)]) true
    hfilter clean
  rw [hbefore] at hignore
  refine ⟨_, _, Eq.trans ?_ hignore, Eq.trans ?_ hwarn⟩
  · rw [h.dispatch_eq, runFrom_skipped (Token.of_long h.long .ignore) rfl]
  · rw [h.dispatch_eq, runFrom_skipped (Token.of_long h.long .warn) (applyAll_cons_ok hafter []),
      runFrom_warn_of_reported rfl]

/-- The four policies are two behaviours. Rejecting and allowing long options do the same, and so do
warning and ignoring apart from remarks. When no long option is reached, the policy does not matter;
otherwise there is a first one under all policies. Two policies fail on it, and the other two differ
in one remark on it. -/
theorem policies_are_two_behaviours (features : Features) (globals : Globals)
    (args : List String) :
    dispatch features .reject globals args = dispatch features .allow globals args ∧
    ((dispatch features .warn globals args).outcome =
        (dispatch features .ignore globals args).outcome ∧
      (dispatch features .warn globals args).progress.globals =
        (dispatch features .ignore globals args).progress.globals ∧
      (dispatch features .warn globals args).progress.calls =
        (dispatch features .ignore globals args).progress.calls) ∧
    (((∀ policy k token, ¬ ReachesLong features policy globals args k token) ∧
        ∀ policy other, dispatch features policy globals args =
          dispatch features other globals args) ∨
      ∃ k token, (∀ policy, ReachesFirst features policy globals args k token) ∧
        (∃ before after,
          (dispatch features .ignore globals args).progress.notices = before ++ after ∧
          (dispatch features .warn globals args).progress.notices =
            before ++ .ignoredOption token :: after) ∧
        (∃ before after : List String,
          (dispatch features .ignore globals args).progress.messages = before ++ after ∧
          (dispatch features .warn globals args).progress.messages =
            before ++ ("ignored option: " ++ token) :: after) ∧
        (dispatch features .reject globals args).outcome =
          .error (if token ∈ knownLongOptions then .unsupportedOption token
            else .notAnOption token)) := by
  have hnone (h : args.length ≤ 1) (policy : LongOptionPolicy) (k : Nat) (token : String) :
      ¬ ReachesLong features policy globals args k token := by
    rintro ⟨items, hlong, -⟩
    obtain ⟨name, rest, rfl⟩ := hlong.args_eq
    simp at h
  match args with
  | [] => exact ⟨rfl, ⟨rfl, rfl, rfl⟩, Or.inl ⟨hnone (by simp), fun _ _ => rfl⟩⟩
  | [name] => exact ⟨rfl, ⟨rfl, rfl, rfl⟩, Or.inl ⟨hnone (by simp), fun _ _ => rfl⟩⟩
  | name :: first :: others =>
    rcases firstLong_cases features globals name (List.cons_ne_nil first others) with
      ⟨hnot, hsame⟩ | ⟨items, token, rest, p, hfirst⟩
    · have hwarn := hsame .warn .ignore
      exact ⟨hsame .reject .allow, ⟨by rw [hwarn], by rw [hwarn], by rw [hwarn]⟩,
        Or.inl ⟨hnot, hsame⟩⟩
    · obtain ⟨outcome, q, hignore, hwarn⟩ := hfirst.dispatch_skipped name
      have hreject := hfirst.dispatch_refused (Or.inl rfl) name
      have hallow := hfirst.dispatch_refused (Or.inr rfl) name
      refine ⟨hreject.trans hallow.symm, ?_,
        Or.inr ⟨(spelled items).length + 1, token, ?_, ?_, ?_, ?_⟩⟩
      · rw [hignore, hwarn]
        refine ⟨rfl, rfl, ?_⟩
        simp [calls_preceded, Effect.call?]
      · intro policy
        exact hfirst.reachesFirst policy name
      · rw [hignore, hwarn]
        refine ⟨p.effects.filterMap Effect.notice?, q.notices, notices_preceded _ _ _, ?_⟩
        simp [notices_preceded, Effect.notice?]
      · rw [hignore, hwarn]
        refine ⟨p.messages, q.messages, messages_preceded _ _ _, ?_⟩
        rw [messages_preceded, List.filterMap_append, List.map_append, List.append_assoc]
        rfl
      · rw [hreject]
        rfl

end Runs

/-- The value of a switch is not reached, and of two long options the first one is reported. -/
theorem policies_are_two_behaviours_posix :
    (∃ k, ∀ policy, ReachesFirst .plain policy Globals.initial
        ["awk", "-f", "--lint", "--posix", "--foo", "a"] k "--posix") ∧
      ∃ before after : List String,
        (dispatch .plain .ignore Globals.initial
          ["awk", "-f", "--lint", "--posix", "--foo", "a"]).progress.messages = before ++ after ∧
        (dispatch .plain .warn Globals.initial
          ["awk", "-f", "--lint", "--posix", "--foo", "a"]).progress.messages =
            before ++ "ignored option: --posix" :: after := by
  have hreject : (dispatch .plain .reject Globals.initial
      ["awk", "-f", "--lint", "--posix", "--foo", "a"]).outcome =
        .error (.unsupportedOption "--posix") := rfl
  have hwarn : (dispatch .plain .warn Globals.initial
      ["awk", "-f", "--lint", "--posix", "--foo", "a"]).outcome =
        .ok (.run ⟨.files ⟨["--lint"]⟩, 5, Flags.none⟩) := rfl
  obtain ⟨-, -, ⟨-, hsame⟩ | ⟨k, token, hfirst, -, hmessages, houtcome⟩⟩ :=
    policies_are_two_behaviours .plain Globals.initial
      ["awk", "-f", "--lint", "--posix", "--foo", "a"]
  · rw [hsame .reject .warn, hwarn] at hreject
    cases hreject
  · rw [hreject] at houtcome
    split_ifs at houtcome
    · obtain rfl : "--posix" = token := by simpa using houtcome
      exact ⟨⟨k, hfirst⟩, hmessages⟩
    · cases houtcome

end CommandLine
end AwkStartup
