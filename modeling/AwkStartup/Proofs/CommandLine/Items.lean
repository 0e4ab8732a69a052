import AwkStartup.Proofs.CommandLine.Tokens

/-!
# Command lines as items

The tokens that reading goes through are the tokens of its items, one after the other. Where it
stops there is nothing, an operand, a lone hyphen, the terminator, a faulty token or a group that
ends the options. The items and what stands there determine the reading.
-/

namespace AwkStartup
namespace CommandLine

/-- Whether an item is what its tokens are read as. -/
def Item.Fits (policy : LongOptionPolicy) : Item → Prop
  | skipped token reported => Token.of policy token = .skipped reported
  | glued _ value => value ≠ ""
  | separate _ _ => True

/-- How an item ends: only a group can end the options. -/
def Item.ending (keywords : Keywords) : Item → Group.Ending
  | skipped _ _ => .through
  | glued switch value | separate switch value => switchEnding keywords switch value

/-- An item that reading goes on after. -/
structure Item.Through (keywords : Keywords) (policy : LongOptionPolicy) (item : Item) : Prop where
  fits : item.Fits policy
  ending : item.ending keywords = .through

theorem Item.tokens_ne_nil (item : Item) : item.tokens ≠ [] := by
  cases item <;> simp [Item.tokens]

/-- The tokens of items. -/
def spelled (items : List Item) : List String :=
  items.flatMap Item.tokens

@[simp] theorem spelled_nil : spelled [] = [] := rfl

@[simp] theorem spelled_cons (item : Item) (items : List Item) :
    spelled (item :: items) = item.tokens ++ spelled items := rfl

@[simp] theorem spelled_append (items others : List Item) :
    spelled (items ++ others) = spelled items ++ spelled others :=
  List.flatMap_append

/-- What stands at an index where reading stops, with the last item when a group ends the
options. -/
inductive Stops (keywords : Keywords) (policy : LongOptionPolicy) (index : Nat) :
    List String → List Item → Ending → Prop
  | exhausted : Stops keywords policy index [] [] (.operands index [])
  | operand {token rest} : Token.of policy token = .operand →
      Stops keywords policy index (token :: rest) [] (.operands index (token :: rest))
  | hyphen {rest} : Stops keywords policy index ("-" :: rest) [] (.dash index ("-" :: rest))
  | terminator {rest} : Stops keywords policy index ("--" :: rest) [] (.terminated (index + 1) rest)
  | refused {token fault rest} : Token.of policy token = .refused fault →
      Stops keywords policy index (token :: rest) [] (.refused fault)
  | lacking {switch : Switch} :
      Stops keywords policy index [switch.token] [] (.refused (.missingArgument switch.token))
  | exec {item : Item} {glued rest} : item.Fits policy → item.ending keywords = .exec glued →
      Stops keywords policy index (item.tokens ++ rest) [item]
        (.exec glued (index + item.tokens.length) rest)
  | usage {item : Item} {rest} : item.Fits policy → item.ending keywords = .usage →
      Stops keywords policy index (item.tokens ++ rest) [item] .usage
  | faulty {item : Item} {fault rest} : item.Fits policy → item.ending keywords = .refused fault →
      Stops keywords policy index (item.tokens ++ rest) [item] (.refused fault)

variable {keywords : Keywords} {policy : LongOptionPolicy}

theorem readFrom_item {item : Item} (h : item.Fits policy) (index : Nat) (rest : List String) :
    readFrom keywords policy index (item.tokens ++ rest) =
      match item.ending keywords with
      | .through => (readFrom keywords policy (index + item.tokens.length) rest).after item
      | .exec glued => ⟨[item], .exec glued (index + item.tokens.length) rest⟩
      | .usage => ⟨[item], .usage⟩
      | .refused fault => ⟨[item], .refused fault⟩ := by
  cases item with
  | skipped token reported =>
    have htoken : Token.of policy token = .skipped reported := h
    simp only [Item.tokens, List.cons_append, List.nil_append, readFrom, htoken, Item.ending,
      List.length_singleton]
  | glued switch value =>
    have htoken := Token.of_gluedToken policy switch h
    cases hending : switchEnding keywords switch value <;>
      simp only [Item.tokens, List.cons_append, List.nil_append, readFrom, htoken, Item.ending,
        List.length_singleton, readSwitch, hending]
  | separate switch value =>
    have htoken := Token.of_token policy switch
    cases hending : switchEnding keywords switch value <;>
      simp only [Item.tokens, List.cons_append, List.nil_append, readFrom, htoken, Item.ending,
        List.length_cons, List.length_nil, readSwitch, hending]

theorem exists_items_readFrom (keywords : Keywords) {item : Item} (hfits : item.Fits policy)
    (index : Nat) (rest : List String) :
    ∃ items ending, readFrom keywords policy index (item.tokens ++ rest) =
      ⟨item :: items, ending⟩ := by
  rw [readFrom_item hfits]
  cases item.ending keywords with
  | through => exact ⟨_, _, rfl⟩
  | exec glued => exact ⟨_, _, rfl⟩
  | usage => exact ⟨_, _, rfl⟩
  | refused fault => exact ⟨_, _, rfl⟩

theorem Stops.readFrom_eq {index : Nat} {rest : List String} {last : List Item} {ending : Ending}
    (h : Stops keywords policy index rest last ending) :
    readFrom keywords policy index rest = ⟨last, ending⟩ := by
  cases h with
  | exhausted => rfl
  | operand hoperand => simp only [readFrom, hoperand]
  | hyphen => simp only [readFrom, Token.of_hyphen]
  | terminator => simp only [readFrom, Token.of_terminator]
  | refused hrefused => simp only [readFrom, hrefused]
  | lacking => simp only [readFrom, Token.of_token]
  | exec hfits hending => rw [readFrom_item hfits, hending]
  | usage hfits hending => rw [readFrom_item hfits, hending]
  | faulty hfits hending => rw [readFrom_item hfits, hending]

theorem readFrom_spelled {items : List Item} (h : ∀ item ∈ items, item.Through keywords policy)
    (index : Nat) (rest : List String) :
    readFrom keywords policy index (spelled items ++ rest) =
      ⟨items ++ (readFrom keywords policy (index + (spelled items).length) rest).items,
        (readFrom keywords policy (index + (spelled items).length) rest).ending⟩ := by
  induction items generalizing index with
  | nil => rfl
  | cons item items ih =>
    obtain ⟨hitem, hitems⟩ := List.forall_mem_cons.mp h
    rw [spelled_cons, List.append_assoc, readFrom_item hitem.fits, hitem.ending]
    dsimp only
    rw [ih hitems, List.length_append, Nat.add_assoc]
    rfl

/-- Where reading stops: what is left starts at an index, and reading goes through the items before
it. -/
structure StopsAfter (keywords : Keywords) (policy : LongOptionPolicy) (index : Nat)
    (tokens : List String) (items : List Item) (rest : List String) (last : List Item)
    (ending : Ending) : Prop where
  tokens_eq : tokens = spelled items ++ rest
  through : ∀ item ∈ items, item.Through keywords policy
  stops : Stops keywords policy (index + (spelled items).length) rest last ending

theorem StopsAfter.readFrom_eq {index : Nat} {tokens rest : List String} {items last : List Item}
    {ending : Ending} (h : StopsAfter keywords policy index tokens items rest last ending) :
    readFrom keywords policy index tokens = ⟨items ++ last, ending⟩ := by
  rw [h.tokens_eq, readFrom_spelled h.through, h.stops.readFrom_eq]

theorem Stops.stopsAfter {index : Nat} {tokens : List String} {last : List Item} {ending : Ending}
    (h : Stops keywords policy index tokens last ending) :
    StopsAfter keywords policy index tokens [] tokens last ending :=
  ⟨rfl, by simp, h⟩

theorem exists_stopsAfter_item {item : Item} (hfits : item.Fits policy) {index : Nat}
    {tokens : List String}
    (h : ∃ items rest last ending,
      StopsAfter keywords policy (index + item.tokens.length) tokens items rest last ending) :
    ∃ items rest last ending,
      StopsAfter keywords policy index (item.tokens ++ tokens) items rest last ending := by
  cases hending : item.ending keywords with
  | through =>
    obtain ⟨items, rest, last, ending, htokens, hthrough, hstops⟩ := h
    refine ⟨item :: items, rest, last, ending, ?_, ?_, ?_⟩
    · rw [htokens, spelled_cons, List.append_assoc]
    · exact List.forall_mem_cons.mpr ⟨⟨hfits, hending⟩, hthrough⟩
    · rwa [spelled_cons, List.length_append, ← Nat.add_assoc]
  | exec glued => exact ⟨[], _, _, _, (Stops.exec hfits hending).stopsAfter⟩
  | usage => exact ⟨[], _, _, _, (Stops.usage hfits hending).stopsAfter⟩
  | refused fault => exact ⟨[], _, _, _, (Stops.faulty hfits hending).stopsAfter⟩

/-- Reading stops somewhere behind its items. -/
theorem exists_stopsAfter (keywords : Keywords) (policy : LongOptionPolicy) (index : Nat)
    (tokens : List String) :
    ∃ items rest last ending,
      StopsAfter keywords policy index tokens items rest last ending := by
  match tokens with
  | [] => exact ⟨[], _, _, _, Stops.exhausted.stopsAfter⟩
  | token :: rest =>
    cases htoken : Token.of policy token with
    | operand => exact ⟨[], _, _, _, (Stops.operand htoken).stopsAfter⟩
    | dash =>
      obtain rfl := Token.of_eq_dash_iff.mp htoken
      exact ⟨[], _, _, _, Stops.hyphen.stopsAfter⟩
    | terminator =>
      obtain rfl := Token.of_eq_terminator_iff.mp htoken
      exact ⟨[], _, _, _, Stops.terminator.stopsAfter⟩
    | refused fault => exact ⟨[], _, _, _, (Stops.refused htoken).stopsAfter⟩
    | skipped reported =>
      have hfits : (Item.skipped token reported).Fits policy := htoken
      exact exists_stopsAfter_item hfits (exists_stopsAfter keywords policy (index + 1) rest)
    | glued switch value =>
      obtain ⟨hvalue, rfl⟩ := Token.of_eq_glued_iff.mp htoken
      have hfits : (Item.glued switch value).Fits policy := hvalue
      exact exists_stopsAfter_item hfits (exists_stopsAfter keywords policy (index + 1) rest)
    | bare switch =>
      obtain rfl := Token.of_eq_bare_iff.mp htoken
      match rest with
      | [] => exact ⟨[], _, _, _, Stops.lacking.stopsAfter⟩
      | value :: rest =>
        have hfits : (Item.separate switch value).Fits policy := trivial
        exact exists_stopsAfter_item hfits (exists_stopsAfter keywords policy (index + 2) rest)
termination_by tokens.length

theorem Item.eq_of_tokens {item other : Item} (hitem : item.Fits policy)
    (hother : other.Fits policy) {rest rest' : List String}
    (h : item.tokens ++ rest = other.tokens ++ rest') : item = other ∧ rest = rest' := by
  obtain ⟨items, ending, hread⟩ := exists_items_readFrom [] hitem 0 rest
  obtain ⟨others, ending', hread'⟩ := exists_items_readFrom [] hother 0 rest'
  rw [h, hread'] at hread
  have hitems := congrArg Reading.items hread
  obtain rfl : other = item := (List.cons.inj hitems).1
  exact ⟨rfl, List.append_cancel_left h⟩

/-- Of two beginnings of the same tokens that are items, one goes on where the other stops. -/
theorem spelled_cases {items others : List Item} (hitems : ∀ item ∈ items, item.Fits policy)
    (hothers : ∀ item ∈ others, item.Fits policy) {rest rest' : List String}
    (h : spelled items ++ rest = spelled others ++ rest') :
    (∃ more, others = items ++ more ∧ rest = spelled more ++ rest') ∨
      ∃ item more, items = others ++ item :: more ∧
        rest' = item.tokens ++ (spelled more ++ rest) := by
  induction items generalizing others with
  | nil => exact Or.inl ⟨others, rfl, h⟩
  | cons item items ih =>
    cases others with
    | nil => exact Or.inr ⟨item, items, rfl, by simpa using h.symm⟩
    | cons other others =>
      obtain ⟨hitem, hlater⟩ := List.forall_mem_cons.mp hitems
      obtain ⟨hother, hlater'⟩ := List.forall_mem_cons.mp hothers
      rw [spelled_cons, spelled_cons, List.append_assoc, List.append_assoc] at h
      obtain ⟨rfl, hrest⟩ := Item.eq_of_tokens hitem hother h
      rcases ih hlater hlater' hrest with ⟨more, rfl, hmore⟩ | ⟨next, more, rfl, hmore⟩
      · exact Or.inl ⟨more, rfl, hmore⟩
      · exact Or.inr ⟨next, more, rfl, hmore⟩

theorem Stops.ending_ne_through {index : Nat} {rest : List String} {last : List Item}
    {ending : Ending} (h : Stops keywords policy index rest last ending) {item : Item}
    (hitem : item ∈ last) : item.ending keywords ≠ .through := by
  cases h with
  | exhausted | operand | hyphen | terminator | refused | lacking => cases hitem
  | exec hfits hending | usage hfits hending | faulty hfits hending =>
    obtain rfl := List.mem_singleton.mp hitem
    rw [hending]
    simp

theorem Stops.not_through {index : Nat} {item : Item} {rest : List String} {last : List Item}
    {ending : Ending} (h : Stops keywords policy index (item.tokens ++ rest) last ending) :
    ¬ item.Through keywords policy := by
  intro hthrough
  obtain ⟨items, ending', hread⟩ := exists_items_readFrom keywords hthrough.fits index rest
  rw [h.readFrom_eq] at hread
  have hlast : last = item :: items := congrArg Reading.items hread
  have hitem : item ∈ last := by
    rw [hlast]
    exact List.mem_cons_self
  exact h.ending_ne_through hitem hthrough.ending

end CommandLine
end AwkStartup
