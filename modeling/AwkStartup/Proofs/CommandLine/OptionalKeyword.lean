import AwkStartup.Proofs.CommandLine.ItemRuns
import AwkStartup.Proofs.Text.Offsets

/-!
# Command lines that leave the optional keyword alone

The builds differ in one keyword of the table. A candidate that does not abbreviate it means the
same in every build, so a run that only comes to such candidates does the same in every build.
-/

namespace AwkStartup

namespace Abbreviation

theorem toNat_toUpper (c : Char) :
    c.toUpper.toNat = if 97 ≤ c.toNat ∧ c.toNat ≤ 122 then c.toNat - 32 else c.toNat := by
  have ha : 'a'.val.toNat = 97 := rfl
  have hz : 'z'.val.toNat = 122 := rfl
  delta Char.toUpper
  simp only [Char.toNat, UInt32.le_iff_toNat_le, ha, hz]
  split_ifs with h
  · simp only [UInt32.toNat_add, UInt32.toNat_sub]
    change (c.val.toNat + (2 ^ 32 - 97 + 65) % 2 ^ 32) % 2 ^ 32 = _
    omega
  · rfl

theorem toNat_upper (b : UInt8) :
    (upper b).toNat = if 97 ≤ b.toNat ∧ b.toNat ≤ 122 then b.toNat - 32 else b.toNat := by
  simp only [upper, UInt8.le_iff_toNat_le, UInt8.reduceToNat]
  split_ifs with h
  · rw [UInt8.toNat_sub_of_le]
    · rfl
    · rw [UInt8.le_iff_toNat_le]
      change 32 ≤ b.toNat
      omega
  · rfl

theorem toUpper_eq {c n : Char} (hc : c.toNat < 128) (hn : n.toNat < 128)
    (h : upper (UInt8.ofNat c.toNat) = UInt8.ofNat n.toNat) : c.toUpper = n := by
  have hbytes := congrArg UInt8.toNat h
  rw [toNat_upper, UInt8.toNat_ofNat', UInt8.toNat_ofNat', Nat.mod_eq_of_lt (by omega),
    Nat.mod_eq_of_lt (by omega)] at hbytes
  rw [← Char.toNat_inj, toNat_toUpper, hbytes]

theorem abbreviates_cons (b n : UInt8) (candidate name : List UInt8) :
    abbreviates (b :: candidate) (n :: name) = (upper b == n && abbreviates candidate name) := by
  simp [abbreviates, Bool.and_left_comm]

theorem isPrefix_of_abbreviates {s name : List Char} (hname : ∀ n ∈ name, n.toNat < 128)
    (h : abbreviates (Text.encode s) (Text.encode name) = true) :
    s.map Char.toUpper <+: name := by
  induction s generalizing name with
  | nil => exact List.nil_prefix
  | cons c s ih =>
    obtain ⟨b, later, hencode⟩ :=
      List.exists_cons_of_ne_nil (String.utf8EncodeChar_ne_nil (c := c))
    rw [Text.encode_cons, hencode, List.cons_append] at h
    cases name with
    | nil => cases h
    | cons n name =>
      obtain ⟨hn, hname⟩ := List.forall_mem_cons.mp hname
      rw [Text.encode_cons, Text.utf8EncodeChar_ascii hn, List.singleton_append, abbreviates_cons,
        Bool.and_eq_true, beq_iff_eq] at h
      obtain ⟨hupper, hlater⟩ := h
      -- A byte beyond ASCII is not folded, and no byte of the name is one.
      have hc : c.toNat < 128 := by
        by_contra hbeyond
        have hb := Text.le_of_mem_utf8EncodeChar (not_lt.mp hbeyond) (hencode ▸ List.mem_cons_self)
        rw [UInt8.le_iff_toNat_le] at hb
        change 128 ≤ b.toNat at hb
        have hfolded := congrArg UInt8.toNat hupper
        rw [toNat_upper, UInt8.toNat_ofNat', if_neg (by omega)] at hfolded
        omega
      rw [Text.utf8EncodeChar_ascii hc] at hencode
      obtain ⟨rfl, rfl⟩ := List.cons.inj hencode
      rw [List.map_cons, toUpper_eq hc hn hupper, List.cons_prefix_cons]
      exact ⟨rfl, ih hname hlater⟩

theorem resolve_congr {α : Type} {table other : List (Keyword α)} {candidate : List UInt8}
    (h : candidates table candidate = candidates other candidate) :
    resolve table candidate = resolve other candidate := by
  unfold resolve
  rw [h]

end Abbreviation

namespace ImplementationOption

/-- A candidate that does not abbreviate the optional keyword stands for the same in every build. -/
theorem resolve_table {candidate : List UInt8}
    (h : Abbreviation.abbreviates candidate (Text.bytes "BINMODE") = false)
    (features others : Features) :
    Abbreviation.resolve (table features) candidate =
      Abbreviation.resolve (table others) candidate := by
  have hcandidates (features : Features) : Abbreviation.candidates (table features) candidate =
      Abbreviation.candidates (table .plain) candidate := by
    cases hbinmode : features.binmode with
    | false =>
      simp only [table, hbinmode]
      rfl
    | true => simp [table, hbinmode, Abbreviation.candidates, List.filter_cons, h, Features.plain]
  apply Abbreviation.resolve_congr
  rw [hcandidates features, hcandidates others]

end ImplementationOption

namespace Group

/-- The candidate of a piece is empty or an abbreviation of the optional keyword, in any case of its
ASCII letters. -/
def CanMeanBinmode (piece : List Char) : Prop :=
  (candidate piece).map Char.toUpper <+: "BINMODE".toList

instance (piece : List Char) : Decidable (CanMeanBinmode piece) :=
  inferInstanceAs (Decidable (_ <+: _))

/-- A piece that reading comes to: it is not empty, and the pieces before it are gone through. -/
inductive ComesTo (table : List (Abbreviation.Keyword ImplementationOption)) :
    List (List Char) → List Char → Prop
  | here {piece later} : piece ≠ [] → ComesTo table (piece :: later) piece
  | later {first later piece} : IsThrough table first → ComesTo table later piece →
      ComesTo table (first :: later) piece

variable {features : Features} {table : List (Abbreviation.Keyword ImplementationOption)}

theorem ComesTo.mem {rest : List (List Char)} {piece : List Char} (h : ComesTo table rest piece) :
    piece ∈ rest ∧ piece ≠ [] := by
  induction h with
  | here hne => exact ⟨List.mem_cons_self, hne⟩
  | later _ _ ih => exact ⟨List.mem_cons_of_mem _ ih.1, ih.2⟩

theorem readPiece_congr {piece : List Char} (h : ¬CanMeanBinmode piece) (features others : Features)
    (later : List (List Char)) :
    readPiece (ImplementationOption.table features) piece later =
      readPiece (ImplementationOption.table others) piece later := by
  have hnot : Abbreviation.abbreviates (Text.encode (candidate piece)) (Text.bytes "BINMODE") =
      false := by
    have hascii : ("BINMODE".toList.all fun n => n.toNat < 128) = true := by decide
    rw [Bool.eq_false_iff]
    intro habbreviates
    apply h (Abbreviation.isPrefix_of_abbreviates _ habbreviates)
    intro n hn
    exact of_decide_eq_true (List.all_eq_true.mp hascii n hn)
  rw [readPiece, ImplementationOption.resolve_table hnot features others]
  rfl

theorem readPieces_congr {rest : List (List Char)}
    (h : ∀ piece, ComesTo (ImplementationOption.table features) rest piece → ¬CanMeanBinmode piece)
    (others : Features) :
    readPieces (ImplementationOption.table features) rest =
      readPieces (ImplementationOption.table others) rest := by
  induction rest with
  | nil => rfl
  | cons piece later ih =>
    have hlater (hthrough : IsThrough (ImplementationOption.table features) piece) :=
      ih fun p hp => h p (.later hthrough hp)
    by_cases hempty : piece = []
    · rw [readPieces, readPieces, if_pos hempty, if_pos hempty, hlater (Or.inl hempty)]
    · have hpiece := readPiece_congr (h piece (.here hempty)) features others later
      rw [readPieces, readPieces, if_neg hempty, if_neg hempty, ← hpiece]
      by_cases hthrough :
          (readPiece (ImplementationOption.table features) piece later).ending = .through
      · rw [hlater (Or.inr ((readPiece_through_iff piece _ _).mp hthrough))]
      · rw [Reading.andThen_of_ne_through hthrough, Reading.andThen_of_ne_through hthrough]

/-- A group is read the same in every build when no piece that reading comes to can mean the
optional keyword. -/
theorem read_congr {group : String}
    (h : ∀ piece, ComesTo (ImplementationOption.table features) (pieces group) piece →
      ¬CanMeanBinmode piece) (others : Features) :
    read (ImplementationOption.table features) group =
      read (ImplementationOption.table others) group := by
  rw [read_eq_readPieces, read_eq_readPieces, readPieces_congr h others]

end Group

namespace CommandLine

variable {features : Features} {keywords : Keywords} {policy : LongOptionPolicy} {p : Progress}
  {tokens : List String}

theorem Stops.exists_tokens {index : Nat} {last : List Item} {ending : Ending}
    (h : Stops keywords policy index tokens last ending) {item : Item} (hitem : item ∈ last) :
    item.Fits policy ∧ ∃ rest, tokens = item.tokens ++ rest := by
  cases h with
  | exhausted | operand | hyphen | terminator | refused | lacking => cases hitem
  | exec hfits hending | usage hfits hending | faulty hfits hending =>
    obtain rfl := List.mem_singleton.mp hitem
    exact ⟨hfits, _, rfl⟩

variable [Libraries]

/-- A group that a run comes to after some progress: reading goes through the items before it, and
they have all been applied. -/
inductive ReachesGroup (keywords : Keywords) (policy : LongOptionPolicy) :
    Progress → List String → String → Prop
  | here {p : Progress} {item : Item} {rest group} : item.Fits policy → item.group? = some group →
      ReachesGroup keywords policy p (item.tokens ++ rest) group
  | later {p q : Progress} {item : Item} {rest group} : item.Through keywords policy →
      applyAll p (item.directives keywords) = (q, none) →
      ReachesGroup keywords policy q rest group →
      ReachesGroup keywords policy p (item.tokens ++ rest) group

/-- No piece that a run comes to after some progress can mean the optional keyword. -/
def LeavesBinmode (features : Features) (policy : LongOptionPolicy) (p : Progress)
    (tokens : List String) : Prop :=
  ∀ group, ReachesGroup (ImplementationOption.table features) policy p tokens group →
    ∀ piece, Group.ComesTo (ImplementationOption.table features) (Group.pieces group) piece →
      ¬Group.CanMeanBinmode piece

theorem ReachesGroup.exists_item {group : String} (h : ReachesGroup keywords policy p tokens group)
    (index : Nat) :
    ∃ item ∈ (readFrom keywords policy index tokens).items, item.group? = some group := by
  induction h generalizing index with
  | @here p item rest group hfits hgroup =>
    obtain ⟨items, ending, hread⟩ := exists_items_readFrom keywords hfits index rest
    rw [hread]
    exact ⟨item, List.mem_cons_self, hgroup⟩
  | @later p q item rest group hthrough _ _ ih =>
    obtain ⟨other, hmem, hgroup⟩ := ih (index + item.tokens.length)
    rw [readFrom_item hthrough.fits, hthrough.ending]
    exact ⟨other, List.mem_cons_of_mem _ hmem, hgroup⟩

theorem leavesBinmode_of_read
    (h : ∀ group ∈ (read (ImplementationOption.table features) policy tokens).items.filterMap
        Item.group?, ∀ piece ∈ Group.pieces group, piece ≠ [] → ¬Group.CanMeanBinmode piece) :
    LeavesBinmode features policy p tokens := by
  intro group hreaches piece hpiece
  obtain ⟨item, hmem, hgroup⟩ := hreaches.exists_item 1
  obtain ⟨hpiece, hne⟩ := hpiece.mem
  exact h group (List.mem_filterMap.mpr ⟨item, hmem, hgroup⟩) piece hpiece hne

theorem LeavesBinmode.item {item : Item} {rest : List String}
    (h : LeavesBinmode features policy p (item.tokens ++ rest)) (hfits : item.Fits policy)
    (others : Features) :
    item.directives (ImplementationOption.table features) =
        item.directives (ImplementationOption.table others) ∧
      item.ending (ImplementationOption.table features) =
        item.ending (ImplementationOption.table others) := by
  cases hgroup : item.group? with
  | some group =>
    have hread := Group.read_congr (h group (.here hfits hgroup)) others
    rw [Item.directives_of_group? hgroup, Item.directives_of_group? hgroup,
      Item.ending_of_group? hgroup, Item.ending_of_group? hgroup, hread]
    exact ⟨rfl, rfl⟩
  | none =>
    cases item with
    | skipped token reported => exact ⟨rfl, rfl⟩
    | glued switch value | separate switch value =>
      cases switch with
      | implementation => cases hgroup
      | separator | assign | programFile => exact ⟨rfl, rfl⟩

theorem LeavesBinmode.later {item : Item} {rest : List String} {q : Progress}
    (h : LeavesBinmode features policy p (item.tokens ++ rest))
    (hthrough : item.Through (ImplementationOption.table features) policy)
    (happly : applyAll p (item.directives (ImplementationOption.table features)) = (q, none)) :
    LeavesBinmode features policy q rest :=
  fun group hgroup => h group (.later hthrough happly hgroup)

theorem LeavesBinmode.stops {index : Nat} {last : List Item} {ending : Ending}
    (h : LeavesBinmode features policy p tokens)
    (hstops : Stops (ImplementationOption.table features) policy index tokens last ending)
    (others : Features) :
    Stops (ImplementationOption.table others) policy index tokens last ending := by
  cases hstops with
  | exhausted => exact .exhausted
  | operand hoperand => exact .operand hoperand
  | hyphen => exact .hyphen
  | terminator => exact .terminator
  | refused hrefused => exact .refused hrefused
  | lacking => exact .lacking
  | exec hfits hending => exact .exec hfits ((h.item hfits others).2.symm.trans hending)
  | usage hfits hending => exact .usage hfits ((h.item hfits others).2.symm.trans hending)
  | faulty hfits hending => exact .faulty hfits ((h.item hfits others).2.symm.trans hending)

theorem LeavesBinmode.directives_last {index : Nat} {last : List Item} {ending : Ending}
    (h : LeavesBinmode features policy p tokens)
    (hstops : Stops (ImplementationOption.table features) policy index tokens last ending)
    (others : Features) :
    last.flatMap (Item.directives (ImplementationOption.table features)) =
      last.flatMap (Item.directives (ImplementationOption.table others)) := by
  apply List.flatMap_congr
  intro item hitem
  obtain ⟨hfits, rest, rfl⟩ := hstops.exists_tokens hitem
  exact (h.item hfits others).1

theorem Reading.runFrom_after {item : Item} {q : Progress}
    (h : applyAll p (item.directives keywords) = (q, none)) (reading : Reading) :
    (reading.after item).runFrom keywords p = reading.runFrom keywords q :=
  @Reading.runFrom_append keywords _ [item] reading.items reading.ending p q (by
    rwa [List.flatMap_singleton])

theorem Reading.runFrom_after_of_error {item : Item} {q : Progress} {fault : StartupError}
    (h : applyAll p (item.directives keywords) = (q, some fault)) (reading : Reading) :
    (reading.after item).runFrom keywords p = ⟨.error fault, q⟩ := by
  apply Reading.runFrom_of_error
  rw [Reading.directives, Reading.after, List.flatMap_cons, applyAll_append_of_error h]

/-- From any progress on, a run does the same in every build. The induction is on the items that
reading goes through, each of which either fails in every build or is applied in every build. -/
theorem LeavesBinmode.runFrom_eq {items last : List Item} {rest : List String} {ending : Ending}
    {index : Nat} (h : LeavesBinmode features policy p tokens)
    (hstops : StopsAfter (ImplementationOption.table features) policy index tokens items rest last
      ending) (others : Features) :
    (readFrom (ImplementationOption.table features) policy index tokens).runFrom
        (ImplementationOption.table features) p =
      (readFrom (ImplementationOption.table others) policy index tokens).runFrom
        (ImplementationOption.table others) p := by
  induction items generalizing p tokens index with
  | nil =>
    obtain rfl : tokens = rest := hstops.tokens_eq
    have hother : StopsAfter (ImplementationOption.table others) policy index tokens [] tokens last
        ending := ⟨rfl, by simp, h.stops hstops.stops others⟩
    rw [hstops.readFrom_eq, hother.readFrom_eq]
    simp only [Reading.runFrom, Reading.directives, List.nil_append,
      h.directives_last hstops.stops others]
  | cons item items ih =>
    obtain ⟨htokens, hthrough, hstop⟩ := hstops
    obtain ⟨hitem, hitems⟩ := List.forall_mem_cons.mp hthrough
    rw [spelled_cons, List.append_assoc] at htokens
    subst htokens
    rw [spelled_cons, List.length_append, ← Nat.add_assoc] at hstop
    obtain ⟨hdirectives, hending⟩ := h.item hitem.fits others
    rw [readFrom_item hitem.fits, readFrom_item hitem.fits, ← hending, hitem.ending]
    dsimp only
    cases happly : applyAll p (item.directives (ImplementationOption.table features)) with
    | mk q failed =>
      have hother := happly
      rw [hdirectives] at hother
      cases failed with
      | some fault =>
        rw [Reading.runFrom_after_of_error happly, Reading.runFrom_after_of_error hother]
      | none =>
        rw [Reading.runFrom_after happly, Reading.runFrom_after hother]
        exact ih (h.later hitem happly) ⟨rfl, hitems, hstop⟩

theorem LeavesBinmode.dispatch_eq {globals : Globals} {args : List String}
    (h : LeavesBinmode features policy (Progress.start globals) args.tail) (others : Features) :
    dispatch features policy globals args = dispatch others policy globals args := by
  match args with
  | [] => rfl
  | [name] => rfl
  | name :: token :: tokens =>
    obtain ⟨items, rest, last, ending, hstops⟩ :=
      exists_stopsAfter (ImplementationOption.table features) policy 1 (token :: tokens)
    rw [dispatch_eq_run (List.cons_ne_nil token tokens),
      dispatch_eq_run (List.cons_ne_nil token tokens)]
    exact h.runFrom_eq hstops others

end CommandLine
end AwkStartup
