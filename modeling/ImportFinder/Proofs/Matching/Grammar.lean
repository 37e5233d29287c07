import ImportFinder.Matching.Binding
import ImportFinder.Proofs.Text.Enclosed

/-!
# The grammar of import statements

An import statement is a line `import <binding> from ...`, where gaps of any
length may stand and one has to stand on either side of the binding. The binding
is a group in braces or an identifier, and a second binding may follow it behind
a comma (`Statement`). The readers of `ImportFinder.Matching.Binding` take such a
line apart from left to right and never go back. They may do so since every part
ends where the next one has to start: behind a gap comes no gap, behind an
identifier nothing that might belong to it. So for each reader there are two
lemmas, one for what it has read (`..._eq_some`) and one for what it reads when
something follows that it stops at (`..._append`), and from both

* `importBinding?_eq_some_iff`: the binding that is read is that of a statement,
  hence a line is a statement for one binding at most (`Statement.unique`);
* `named_iff`: the name that is read off a binding, as it is written down in
  `Named`;
* `importedName?_follows_grammar`: both together.
-/

namespace ImportFinder.Matching

variable {t rest line binding name : Text}

/-! ### Statements -/

/-- The comma before a second binding, and between the entries of a group. -/
abbrev comma : UInt8 := 0x2C

/-- The star of a second binding. -/
abbrev star : UInt8 := 0x2A

/-- A gap between words. -/
def Gap (t : Text) : Prop := ∀ b ∈ t, isGap b = true

/-- A group in braces. -/
def IsGroup (t : Text) : Prop :=
  ∃ inner, t = openBrace :: (inner ++ [closeBrace]) ∧ closeBrace ∉ inner

/-- What a statement binds. -/
inductive IsBinding : Text → Prop
  | group {t : Text} (h : IsGroup t) : IsBinding t
  | identifier {t : Text} (h : isIdentifier t = true) : IsBinding t

/-- A second binding: a group, or a name for everything. -/
inductive IsOther : Text → Prop
  | group {t : Text} (h : IsGroup t) : IsOther t
  | everything {gap gap' name : Text} (hgap : Gap gap) (hgap' : Gap gap') (hne : gap' ≠ [])
      (hname : isIdentifier name = true) :
      IsOther (star :: (gap ++ (text "as" ++ (gap' ++ name))))

/-- What may follow a binding: nothing, or a second one behind a comma. -/
inductive Second : Text → Prop
  | none : Second []
  | some {gap gap' other : Text} (hgap : Gap gap) (hgap' : Gap gap') (hother : IsOther other) :
      Second (gap ++ comma :: (gap' ++ other))

/-- An import statement with a binding. The word `from` ends where no word byte
    follows it. -/
inductive Statement (binding : Text) : Text → Prop
  | intro {start gap second gap' rest : Text} (hstart : Gap start) (hgap : Gap gap) (hne : gap ≠ [])
      (hbinding : IsBinding binding) (hsecond : Second second) (hgap' : Gap gap') (hne' : gap' ≠ [])
      (hrest : Text.Stops isWordByte rest) :
      Statement binding (start ++ (text "import" ++ (gap ++ (binding ++ (second ++ (gap' ++
        (text "from" ++ rest)))))))

/-! ### Where parts end -/

theorem isIdentifierByte_of_isIdentifierStart {b : UInt8} (h : isIdentifierStart b = true) :
    isIdentifierByte b = true := by
  simp only [isIdentifierStart, isIdentifierByte, Bool.or_eq_true, Bool.and_eq_true] at h ⊢
  exact h.imp id And.left

theorem isIdentifierByte_eq_false (b : UInt8) (h : isGap b = true) :
    isIdentifierByte b = false := by
  simp only [isGap, Bool.or_eq_true, beq_iff_eq] at h
  rcases h with (((rfl | rfl) | rfl) | rfl) | rfl <;> decide

/-- A text stops at its first byte. -/
theorem stops_cons {p : UInt8 → Bool} {b : UInt8} (hb : p b = false) (rest : Text) :
    Text.Stops p (b :: rest) := by
  intro c hc
  rwa [← Option.some.inj hc]

theorem stops_word {p : UInt8 → Bool} {word : Text} (hword : (word.head?.any fun b => !p b) = true)
    (rest : Text) : Text.Stops p (word ++ rest) := by
  cases word with
  | nil => exact absurd hword (by simp)
  | cons b word => exact stops_cons (by simpa using hword) _

/-- What no byte of a gap satisfies ends at a gap. -/
theorem stops_gap {p : UInt8 → Bool} (hp : ∀ b, isGap b = true → p b = false) {gap : Text}
    (hgap : Gap gap) (hne : gap ≠ []) (rest : Text) : Text.Stops p (gap ++ rest) := by
  obtain ⟨b, gap, rfl⟩ := List.exists_cons_of_ne_nil hne
  exact stops_cons (hp b (hgap b List.mem_cons_self)) _

theorem stops_identifier (hname : isIdentifier name = true) (rest : Text) :
    Text.Stops isGap (name ++ rest) := by
  cases name with
  | nil => exact absurd hname (by decide)
  | cons b name =>
    rw [isIdentifier, Bool.and_eq_true] at hname
    refine stops_cons (Bool.eq_false_iff.2 fun hgap => ?_) _
    have hbyte := isIdentifierByte_of_isIdentifierStart hname.1
    exact absurd (isIdentifierByte_eq_false b hgap) (by simp [hbyte])

theorem stops_group {group : Text} (hgroup : IsGroup group) (rest : Text) :
    Text.Stops isGap (group ++ rest) := by
  obtain ⟨inner, rfl, -⟩ := hgroup
  exact stops_cons (by decide) _

theorem IsBinding.stops (h : IsBinding binding) (rest : Text) :
    Text.Stops isGap (binding ++ rest) := by
  cases h with
  | group h => exact stops_group h rest
  | identifier h => exact stops_identifier h rest

theorem IsOther.stops {other : Text} (h : IsOther other) (rest : Text) :
    Text.Stops isGap (other ++ rest) := by
  cases h with
  | group h => exact stops_group h rest
  | everything => exact stops_cons (by decide) _

/-- Behind a binding there is a gap or a comma. -/
theorem Second.stops {p : UInt8 → Bool} (hp : ∀ b, isGap b = true → p b = false)
    (hcomma : p comma = false) {second gap : Text} (h : Second second) (hgap : Gap gap)
    (hne : gap ≠ []) (rest : Text) : Text.Stops p (second ++ (gap ++ rest)) := by
  cases h with
  | none => exact stops_gap hp hgap hne rest
  | @some gap' _ other hgap' =>
    cases gap' with
    | nil => exact stops_cons hcomma _
    | cons b gap' => exact stops_cons (hp b (hgap' b List.mem_cons_self)) _

/-! ### Reading gaps and words -/

theorem afterWord?_eq_some_iff {word : Text} :
    afterWord? word t = some rest ↔ t = word ++ rest := by
  rw [afterWord?]
  constructor
  · intro h
    split_ifs at h with hword
    rw [← Option.some.inj h]
    exact (List.prefix_iff_eq_append.1 (List.isPrefixOf_iff_prefix.1 hword)).symm
  · rintro rfl
    rw [if_pos (List.isPrefixOf_iff_prefix.2 (List.prefix_append _ _)), List.drop_left]

theorem afterWord?_append (word rest : Text) : afterWord? word (word ++ rest) = some rest :=
  afterWord?_eq_some_iff.2 rfl

theorem exists_gap (t : Text) : ∃ gap, t = gap ++ afterGap t ∧ Gap gap :=
  Text.exists_eq_append_dropWhile t

theorem afterGap_append {gap : Text} (hgap : Gap gap) (hrest : Text.Stops isGap rest) :
    afterGap (gap ++ rest) = rest :=
  Text.dropWhile_append_of_stops hgap hrest

theorem afterSomeGap?_eq_some (h : afterSomeGap? t = some rest) :
    ∃ gap, t = gap ++ rest ∧ Gap gap ∧ gap ≠ [] := by
  cases t with
  | nil => exact absurd h (by simp [afterSomeGap?])
  | cons b t =>
    rw [afterSomeGap?] at h
    split_ifs at h with hb
    obtain ⟨gap, hgap, hall⟩ := exists_gap t
    rw [← Option.some.inj h]
    exact ⟨b :: gap, congrArg (b :: ·) hgap, List.forall_mem_cons.2 ⟨hb, hall⟩,
      List.cons_ne_nil _ _⟩

theorem afterSomeGap?_append {gap : Text} (hgap : Gap gap) (hne : gap ≠ [])
    (hrest : Text.Stops isGap rest) : afterSomeGap? (gap ++ rest) = some rest := by
  obtain ⟨b, gap, rfl⟩ := List.exists_cons_of_ne_nil hne
  obtain ⟨hb, hgap⟩ := List.forall_mem_cons.1 hgap
  rw [List.cons_append, afterSomeGap?, if_pos hb, afterGap_append hgap hrest]

/-! ### Reading bindings -/

theorem identifier?_eq_some (h : identifier? t = some (name, rest)) :
    t = name ++ rest ∧ isIdentifier name = true := by
  cases t with
  | nil => exact absurd h (by simp [identifier?])
  | cons b t =>
    rw [identifier?] at h
    split_ifs at h with hb
    obtain ⟨rfl, rfl⟩ := Prod.mk.inj (Option.some.inj h)
    refine ⟨by simp, ?_⟩
    rw [isIdentifier, hb, Bool.true_and]
    exact List.all_takeWhile

theorem identifier?_append (hname : isIdentifier name = true)
    (hrest : Text.Stops isIdentifierByte rest) :
    identifier? (name ++ rest) = some (name, rest) := by
  cases name with
  | nil => exact absurd hname (by decide)
  | cons b name =>
    rw [isIdentifier, Bool.and_eq_true, List.all_eq_true] at hname
    rw [List.cons_append, identifier?, if_pos hname.1, Text.takeWhile_append_of_stops hname.2 hrest,
      Text.dropWhile_append_of_stops hname.2 hrest]

theorem group?_eq_some {group : Text} (h : group? t = some (group, rest)) :
    t = group ++ rest ∧ IsGroup group := by
  cases t with
  | nil => exact absurd h (by simp [group?])
  | cons b t =>
    rw [group?] at h
    split_ifs at h with hb
    split at h
    · exact absurd h (by simp)
    next close after hrest =>
      obtain ⟨rfl, rfl⟩ := Prod.mk.inj (Option.some.inj h)
      have hclose := Text.stops_dropWhile (p := (· != closeBrace)) t close (by rw [hrest]; rfl)
      have ht := List.takeWhile_append_dropWhile (p := (· != closeBrace)) (l := t)
      rw [bne_eq_false_iff_eq] at hclose
      rw [hrest, hclose] at ht
      refine ⟨by rw [hb, hclose]; simpa using ht.symm, _, by rw [hclose]; rfl, fun hmem => ?_⟩
      exact absurd (List.mem_takeWhile_imp hmem) (by simp)

theorem group?_append {group : Text} (hgroup : IsGroup group) (rest : Text) :
    group? (group ++ rest) = some (group, rest) := by
  obtain ⟨inner, rfl, hinner⟩ := hgroup
  have hall : ∀ b ∈ inner, (b != closeBrace) = true := fun b hb =>
    bne_iff_ne.2 fun h => hinner (h ▸ hb)
  have hstops : Text.Stops (· != closeBrace) (closeBrace :: rest) := fun b hb => by
    rw [← Option.some.inj hb]
    exact bne_self_eq_false closeBrace
  rw [List.cons_append, List.append_assoc, List.singleton_append, group?, if_pos rfl,
    Text.dropWhile_append_of_stops hall hstops, Text.takeWhile_append_of_stops hall hstops]
  rfl

/-- Only a group starts with a brace. -/
theorem group?_eq_none (h : t.head? ≠ some openBrace) : group? t = none := by
  cases t with
  | nil => rfl
  | cons b t => rw [group?, if_neg fun hb => h (congrArg some hb)]

theorem head?_ne_openBrace (h : isIdentifier name = true) (rest : Text) :
    (name ++ rest).head? ≠ some openBrace := by
  cases name with
  | nil => exact absurd h (by decide)
  | cons b name =>
    rw [isIdentifier, Bool.and_eq_true] at h
    intro hb
    rw [Option.some.inj hb] at h
    exact absurd h.1 (by decide)

theorem binding?_eq_some (h : binding? t = some (binding, rest)) :
    t = binding ++ rest ∧ IsBinding binding := by
  rw [binding?, Option.or_eq_some_iff] at h
  rcases h with h | ⟨-, h⟩
  · exact (group?_eq_some h).imp id .group
  · exact (identifier?_eq_some h).imp id .identifier

theorem binding?_append (hbinding : IsBinding binding) (hrest : Text.Stops isIdentifierByte rest) :
    binding? (binding ++ rest) = some (binding, rest) := by
  cases hbinding with
  | group h => rw [binding?, group?_append h, Option.some_or]
  | identifier h =>
    rw [binding?, group?_eq_none (head?_ne_openBrace h rest), Option.none_or,
      identifier?_append h hrest]

/-! ### Reading second bindings -/

theorem afterNamespace?_eq_some (h : afterNamespace? t = some rest) :
    ∃ other, t = other ++ rest ∧ IsOther other := by
  simp only [afterNamespace?, bind, Option.bind_eq_some_iff, Prod.exists] at h
  obtain ⟨behind, hstar, after, has, named, hgap', name, more, hname, hmore⟩ := h
  obtain ⟨gap, hgap, hall⟩ := exists_gap behind
  obtain ⟨gap', rfl, hall', hne⟩ := afterSomeGap?_eq_some hgap'
  obtain ⟨rfl, hident⟩ := identifier?_eq_some hname
  rw [afterWord?_eq_some_iff.1 has] at hgap
  rw [afterWord?_eq_some_iff.1 hstar, hgap, ← Option.some.inj hmore]
  exact ⟨_, by simp, .everything hall hall' hne hident⟩

theorem afterNamespace?_append {gap gap' : Text} (hgap : Gap gap) (hgap' : Gap gap')
    (hne : gap' ≠ []) (hname : isIdentifier name = true)
    (hrest : Text.Stops isIdentifierByte rest) :
    afterNamespace? (star :: (gap ++ (text "as" ++ (gap' ++ (name ++ rest))))) = some rest := by
  have hstar : afterWord? [0x2A] (star :: (gap ++ (text "as" ++ (gap' ++ (name ++ rest))))) =
      some (gap ++ (text "as" ++ (gap' ++ (name ++ rest)))) := afterWord?_append [star] _
  have has : ∀ more, Text.Stops isGap (text "as" ++ more) := stops_word (by decide)
  simp only [afterNamespace?, hstar, afterGap_append hgap (has _), afterWord?_append,
    afterSomeGap?_append hgap' hne (stops_identifier hname _), identifier?_append hname hrest,
    Option.bind_eq_bind, Option.bind_some]
  rfl

theorem afterSecond?_eq_some (h : afterSecond? t = some rest) :
    ∃ second, t = second ++ rest ∧ Second second := by
  rw [afterSecond?] at h
  split at h
  · exact ⟨[], Option.some.inj h, .none⟩
  next more hcomma =>
    obtain ⟨gap, hgap, hall⟩ := exists_gap t
    obtain ⟨gap', hgap', hall'⟩ := exists_gap more
    have hother : ∃ other, afterGap more = other ++ rest ∧ IsOther other := by
      split at h
      next group after hgroup =>
        obtain ⟨hmore, hgroup⟩ := group?_eq_some hgroup
        exact ⟨group, by rw [hmore, Option.some.inj h], .group hgroup⟩
      next => exact afterNamespace?_eq_some h
    obtain ⟨other, hmore, hother⟩ := hother
    rw [afterWord?_eq_some_iff.1 hcomma, hgap', hmore] at hgap
    exact ⟨_, by rw [hgap]; simp, .some hall hall' hother⟩

/-- A second binding is read up to the gap behind it. -/
theorem afterSecond?_append {second gap : Text} (hsecond : Second second) (hgap : Gap gap)
    (hne : gap ≠ []) (hrest : Text.Stops isGap rest) (hcomma : Text.Stops (· == comma) rest) :
    afterSecond? (second ++ (gap ++ rest)) = some (gap ++ rest) := by
  cases hsecond with
  | none =>
    have hnone : afterWord? [0x2C] rest = none := by
      rw [Option.eq_none_iff_forall_ne_some]
      intro more hmore
      rw [afterWord?_eq_some_iff.1 hmore] at hcomma
      exact absurd (hcomma comma rfl) (by decide)
    rw [List.nil_append, afterSecond?, afterGap_append hgap hrest, hnone]
  | @some gap₁ gap₂ other hgap₁ hgap₂ hother =>
    have hword : afterWord? [0x2C] (comma :: (gap₂ ++ (other ++ (gap ++ rest)))) =
        some (gap₂ ++ (other ++ (gap ++ rest))) := afterWord?_append [comma] _
    rw [List.append_assoc, List.cons_append, List.append_assoc, afterSecond?,
      afterGap_append hgap₁ (stops_cons (by decide) _), hword]
    dsimp only
    rw [afterGap_append hgap₂ (hother.stops _)]
    cases hother with
    | group hgroup => rw [group?_append hgroup]
    | everything hgap₃ hgap₄ hne₄ hname =>
      simp only [List.cons_append, List.append_assoc]
      rw [group?_eq_none (by rw [List.head?_cons]; decide)]
      exact afterNamespace?_append hgap₃ hgap₄ hne₄ hname
        (stops_gap isIdentifierByte_eq_false hgap hne rest)

/-! ### Reading statements -/

theorem any_isWordByte_iff : rest.head?.any isWordByte = false ↔ Text.Stops isWordByte rest := by
  rw [Option.any_eq_false]
  exact ⟨fun h b hb => by simpa using h b hb, fun h b hb => by simpa using h b hb⟩

theorem statement_of_importBinding? (h : importBinding? line = some binding) :
    Statement binding line := by
  simp only [importBinding?, bind, Option.bind_eq_some_iff, Prod.exists] at h
  obtain ⟨afterImport, himport, atBinding, hgap, found, behind, hbinding, atGap, hsecond, atFrom,
    hgap', behindFrom, hfrom, h⟩ := h
  split_ifs at h with hword
  obtain rfl := Option.some.inj h
  obtain ⟨start, hstart, hall⟩ := exists_gap line
  obtain ⟨gap, rfl, hall₁, hne₁⟩ := afterSomeGap?_eq_some hgap
  obtain ⟨rfl, hkind⟩ := binding?_eq_some hbinding
  obtain ⟨second, rfl, hkind'⟩ := afterSecond?_eq_some hsecond
  obtain ⟨gap', rfl, hall₂, hne₂⟩ := afterSomeGap?_eq_some hgap'
  obtain rfl := afterWord?_eq_some_iff.1 hfrom
  rw [afterWord?_eq_some_iff.1 himport] at hstart
  rw [hstart]
  exact .intro hall hall₁ hne₁ hkind hkind' hall₂ hne₂
    (any_isWordByte_iff.1 (Bool.eq_false_iff.2 hword))

theorem Statement.importBinding? (h : Statement binding line) :
    importBinding? line = some binding := by
  cases h with
  | @intro start gap second gap' rest hstart hgap hne hbinding hsecond hgap' hne' hrest =>
    have himport : ∀ more, Text.Stops isGap (text "import" ++ more) := stops_word (by decide)
    have hfrom : ∀ more, Text.Stops isGap (text "from" ++ more) := stops_word (by decide)
    have hcomma : Text.Stops (· == comma) (text "from" ++ rest) := stops_word (by decide) _
    simp only [Matching.importBinding?, afterGap_append hstart (himport _), afterWord?_append,
      afterSomeGap?_append hgap hne (hbinding.stops _),
      binding?_append hbinding (hsecond.stops isIdentifierByte_eq_false rfl hgap' hne' _),
      afterSecond?_append hsecond hgap' hne' (hfrom _) hcomma,
      afterSomeGap?_append hgap' hne' (hfrom _), any_isWordByte_iff.2 hrest,
      Option.bind_eq_bind, Option.bind_some, Bool.false_eq_true, if_false]

/-- The binding that is read off a line is that of the statement which the line
    is. -/
theorem importBinding?_eq_some_iff : importBinding? line = some binding ↔ Statement binding line :=
  ⟨statement_of_importBinding?, Statement.importBinding?⟩

/-- A line is a statement for one binding at most. -/
theorem Statement.unique {binding' : Text} (h : Statement binding line)
    (h' : Statement binding' line) : binding = binding' :=
  Option.some.inj (h.importBinding?.symm.trans h'.importBinding?)

/-! ### Names -/

/-- The first entry of a group: what lies before the first comma, without the
    white space, the braces and the blanks around it. -/
inductive IsFirstEntry (group : Text) : Text → Prop
  | intro {inner first rest entry : Text} (hinner : Text.Stripped isPadding group inner)
      (hsplit : inner = first ++ rest) (hfirst : comma ∉ first)
      (hrest : rest = [] ∨ rest.head? = some comma)
      (hentry : Text.Stripped isPadding (Text.trim first) entry) : IsFirstEntry group entry

/-- The name that a binding gives: an identifier gives itself, and a group the
    name of its first entry, or the one behind `as` there. -/
inductive Named : Text → Text → Prop
  | identifier {name : Text} (hname : isIdentifier name = true) : Named name name
  | entry {group name : Text} (hgroup : IsGroup group) (hentry : IsFirstEntry group name)
      (hplain : ∀ original given, Text.fields name ≠ [original, text "as", given])
      (hname : isIdentifier name = true) : Named group name
  | renamed {group entry original name : Text} (hgroup : IsGroup group)
      (hentry : IsFirstEntry group entry)
      (hfields : Text.fields entry = [original, text "as", name])
      (hname : isIdentifier name = true) : Named group name

theorem isFirstEntry_iff {group entry : Text} :
    IsFirstEntry group entry ↔ entry = firstEntry group := by
  constructor
  · rintro @⟨_, first, rest, _, hinner, rfl, hfirst, hrest, hentry⟩
    have hall : ∀ b ∈ first, (b != comma) = true := fun b hb =>
      bne_iff_ne.2 fun h => hfirst (h ▸ hb)
    have hstops : Text.Stops (· != comma) rest := fun b hb => by
      rcases hrest with rfl | hrest
      · exact absurd hb (by simp)
      · rw [← Option.some.inj (hrest.symm.trans hb)]
        exact bne_self_eq_false comma
    rw [firstEntry, ← hinner.eq_trimBytes, Text.takeWhile_append_of_stops hall hstops]
    exact hentry.eq_trimBytes
  · rintro rfl
    refine .intro (Text.stripped_trimBytes _) List.takeWhile_append_dropWhile.symm (fun h => ?_) ?_
      (Text.stripped_trimBytes _)
    · exact absurd (List.mem_takeWhile_imp h) (by decide)
    · cases hrest : (Text.trimBytes isPadding group).dropWhile (· != comma) with
      | nil => exact .inl rfl
      | cons b rest =>
        have hb := Text.stops_dropWhile (p := (· != comma)) (Text.trimBytes isPadding group) b
          (by rw [hrest]; rfl)
        rw [bne_eq_false_iff_eq.1 hb]
        exact .inr rfl

theorem localName_of_renamed {entry original : Text}
    (h : Text.fields entry = [original, text "as", name]) : localName entry = name := by
  rw [localName, h]
  exact if_pos rfl

theorem localName_of_plain {entry : Text}
    (h : ∀ original given, Text.fields entry ≠ [original, text "as", given]) :
    localName entry = entry := by
  rw [localName]
  split
  next original as_ given hfields =>
    refine if_neg fun has => ?_
    rw [has] at hfields
    exact h original given hfields
  · rfl

theorem IsGroup.head? {group : Text} (h : IsGroup group) : group.head? = some openBrace := by
  obtain ⟨inner, rfl, -⟩ := h
  rfl

/-- An identifier is no group. -/
theorem IsGroup.isIdentifier {group : Text} (h : IsGroup group) : isIdentifier group = false := by
  refine Bool.eq_false_iff.2 fun hname => ?_
  have hhead := head?_ne_openBrace hname []
  rw [List.append_nil] at hhead
  exact hhead h.head?

theorem named_group_iff {group : Text} (hgroup : IsGroup group) :
    Named group name ↔ name = localName (firstEntry group) ∧ isIdentifier name = true := by
  constructor
  · intro h
    cases h with
    | identifier hname => exact absurd hname (by simp [hgroup.isIdentifier])
    | entry _ hentry hplain hname =>
      rw [← isFirstEntry_iff.1 hentry, localName_of_plain hplain]
      exact ⟨rfl, hname⟩
    | renamed _ hentry hfields hname =>
      rw [← isFirstEntry_iff.1 hentry, localName_of_renamed hfields]
      exact ⟨rfl, hname⟩
  · rintro ⟨rfl, hname⟩
    have hentry : IsFirstEntry group (firstEntry group) := isFirstEntry_iff.2 rfl
    by_cases hrenamed : ∃ original given,
        Text.fields (firstEntry group) = [original, text "as", given]
    · obtain ⟨original, given, hfields⟩ := hrenamed
      rw [localName_of_renamed hfields] at hname ⊢
      exact .renamed hgroup hentry hfields hname
    · have hplain : ∀ original given,
          Text.fields (firstEntry group) ≠ [original, text "as", given] :=
        fun original given h => hrenamed ⟨original, given, h⟩
      rw [localName_of_plain hplain] at hname ⊢
      exact .entry hgroup hentry hplain hname

theorem named_identifier_iff (hbinding : isIdentifier binding = true) :
    Named binding name ↔ name = binding := by
  constructor
  · intro h
    cases h with
    | identifier => rfl
    | entry hgroup => exact absurd hbinding (by simp [hgroup.isIdentifier])
    | renamed hgroup => exact absurd hbinding (by simp [hgroup.isIdentifier])
  · rintro rfl
    exact .identifier hbinding

/-- A binding gives one name at most, and that is an identifier. -/
theorem Named.unique {name' : Text} (h : Named binding name) (h' : Named binding name') :
    name = name' := by
  by_cases hbinding : isIdentifier binding = true
  · rw [(named_identifier_iff hbinding).1 h, (named_identifier_iff hbinding).1 h']
  · have hgroup : IsGroup binding := by
      cases h with
      | identifier hname => exact absurd hname hbinding
      | entry hgroup => exact hgroup
      | renamed hgroup => exact hgroup
    rw [((named_group_iff hgroup).1 h).1, ((named_group_iff hgroup).1 h').1]

theorem Named.isIdentifier (h : Named binding name) : isIdentifier name = true := by
  cases h with
  | identifier hname => exact hname
  | entry _ _ _ hname => exact hname
  | renamed _ _ _ hname => exact hname

theorem Statement.isBinding (h : Statement binding line) : IsBinding binding := by
  cases h with
  | intro _ _ _ hbinding => exact hbinding

/-- The name that is read off a statement is the one that its binding gives. -/
theorem Statement.importedName?_eq_some_iff (h : Statement binding line) :
    importedName? line = some name ↔ Named binding name := by
  rw [importedName?, h.importBinding?, Option.bind_eq_bind, Option.bind_some]
  cases h.isBinding with
  | group hgroup =>
    rw [if_pos hgroup.head?, named_group_iff hgroup]
    dsimp only
    split_ifs with hname
    · rw [Option.some.injEq, eq_comm (b := name)]
      exact ⟨fun h => ⟨h, h ▸ hname⟩, And.left⟩
    · refine iff_of_false (by simp) fun h => hname (h.1 ▸ h.2)
  | identifier hident =>
    have hhead := head?_ne_openBrace hident []
    rw [List.append_nil] at hhead
    rw [if_neg hhead, named_identifier_iff hident, Option.some.injEq, eq_comm]

/-- An imported name is read off exactly those lines that are import statements
    and whose binding gives a name, and that is the name. The binding is
    determined by the line, and the name, which is an identifier, by the
    binding. -/
theorem importedName?_follows_grammar (line : Text) :
    (∀ name, importedName? line = some name ↔
      ∃ binding, Statement binding line ∧ Named binding name) ∧
    (∀ binding binding', Statement binding line → Statement binding' line → binding = binding') ∧
    (∀ binding name name', Named binding name → Named binding name' → name = name') ∧
    (∀ binding name, Named binding name → isIdentifier name = true) ∧
    (importedName? line = none ↔
      ¬ ∃ binding name, Statement binding line ∧ Named binding name) := by
  have hiff : ∀ name, importedName? line = some name ↔
      ∃ binding, Statement binding line ∧ Named binding name := by
    intro name
    constructor
    · intro hname
      obtain ⟨binding, hbinding, -⟩ := Option.bind_eq_some_iff.1 hname
      have hline := importBinding?_eq_some_iff.1 hbinding
      exact ⟨binding, hline, hline.importedName?_eq_some_iff.1 hname⟩
    · rintro ⟨binding, hline, hname⟩
      exact hline.importedName?_eq_some_iff.2 hname
  refine ⟨hiff, fun _ _ => Statement.unique, fun _ _ _ => Named.unique,
    fun _ _ => Named.isIdentifier, ?_⟩
  rw [Option.eq_none_iff_forall_ne_some, not_exists]
  exact ⟨fun h binding ⟨name, hname⟩ => h name ((hiff name).2 ⟨binding, hname⟩),
    fun h name hname => by
      obtain ⟨binding, hboth⟩ := (hiff name).1 hname
      exact h binding ⟨name, hboth⟩⟩

/-- A line with a renamed entry, and with a second binding that does not matter. -/
def renamedLine : Text := text "import \x7b\ta as b , c\x7d ,* as d from'x'"

/-- A line in which the entry is no identifier. -/
def brokenLine : Text := text "import \x7b a b \x7d from 'x'"

theorem importedName?_follows_grammar_sample :
    (∃ binding, Statement binding renamedLine ∧ Named binding (text "b")) ∧
    (∀ binding, Statement binding renamedLine → binding = text "\x7b\ta as b , c\x7d") ∧
    ¬ ∃ binding name, Statement binding brokenLine ∧ Named binding name := by
  have hname : importedName? renamedLine = some (text "b") := by decide +kernel
  have hline : Statement (text "\x7b\ta as b , c\x7d") renamedLine :=
    importBinding?_eq_some_iff.1 (by decide +kernel)
  have hnone : importedName? brokenLine = none := by decide +kernel
  obtain ⟨hiff, hunique, -⟩ := importedName?_follows_grammar renamedLine
  obtain ⟨-, -, -, -, hrefused⟩ := importedName?_follows_grammar brokenLine
  exact ⟨(hiff _).1 hname, fun binding h => hunique _ _ h hline, hrefused.1 hnone⟩

end ImportFinder.Matching
