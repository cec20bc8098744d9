import LiveSchema.Catalog.ColumnItem
import LiveSchema.Proofs.Readers
/-! What an item looks like that is read as a column, said without the reader: a name, blanks, a type without
blanks, the constraints in their order, each of them there or not, and a default or blanks. The reader never
has a choice, since what may stand behind a constraint begins with other letters than the constraint. -/
namespace LiveSchema
open Text Catalog

def isBare (c : Char) : Bool := !isBlank c && (closingQuote? c).isNone

inductive NameForm : List Char → List Char → Prop where
  | quoted {first last name} (quotes : closingQuote? first = some last) (filled : name ≠ [])
    (closed : last ∉ name) : NameForm (first :: (name ++ [last])) name
  | bare {name} (filled : name ≠ []) (plain : ∀ c ∈ name, isBare c = true) : NameForm name name

inductive DefaultForm : Option String → List Char → Prop where
  | absent {cs} (blank : ∀ c ∈ cs, isBlank c = true) : DefaultForm none cs
  | given {front gap value back} (keyword : Spaced ["default"] front) (apart : Gap gap)
    (form : isDefault value = true) (blank : ∀ c ∈ back, isBlank c = true) :
    DefaultForm (some (String.ofList value)) (front ++ (gap ++ (value ++ back)))

inductive Flagged (keywords : List String) (behind : List Char → Prop) : Bool → List Char → Prop where
  | given {text rest} (spaced : Spaced keywords text) (holds : behind rest) :
    Flagged keywords behind true (text ++ rest)
  | absent {rest} (holds : behind rest) : Flagged keywords behind false rest

section
variable (c : Column)

def NullTail : List Char → Prop := Flagged ["not", "null"] (DefaultForm c.default) c.notNull

def UniqueTail : List Char → Prop := Flagged ["unique"] (NullTail c) c.unique

def AutoTail : List Char → Prop := Flagged ["autoincrement"] (UniqueTail c) c.autoIncrement

def TailForm : List Char → Prop := Flagged ["primary", "key"] (AutoTail c) c.primaryKey

def Constrained (behind : List Char → Prop) : List Char → Prop :=
  Flagged ["primary", "key"] (Flagged ["autoincrement"] (Flagged ["unique"]
    (Flagged ["not", "null"] behind c.notNull) c.unique) c.autoIncrement) c.primaryKey

end

inductive ColumnForm : List Char → Column → Prop where
  | item {written name gap type tail} {c : Column} (named : NameForm written name) (apart : Gap gap)
    (filled : type ≠ []) (solid : ∀ t ∈ type, isBlank t = false) (behind : TailForm c tail)
    (read : c.name = String.ofList name ∧ c.dbType = String.ofList type ∧ c.field = none ∧ c.valueType = none) :
    ColumnForm (written ++ (gap ++ (type ++ tail))) c

section Name
variable {cs written name rest : List Char}

theorem itemNameFound (found : itemName? cs = some (name, rest)) :
    ∃ written, NameForm written name ∧ cs = written ++ rest := by
  cases cs with
  | nil => contradiction
  | cons c cs =>
    rw [itemName?] at found
    split at found
    · rename_i last quotes
      rw [quotedRun?] at found
      split at found
      · rename_i split
        cases found
        obtain ⟨rfl, filled, inside, stop⟩ := runForm.mp split
        have closes := stop _ rfl
        simp only [bne_eq_false_iff_eq] at closes
        subst closes
        refine ⟨_, .quoted quotes filled fun member => ?_, by simp⟩
        simpa using inside _ member
      · contradiction
    · obtain ⟨text, filled, inside, _⟩ := runForm.mp found
      exact ⟨name, .bare filled inside, text⟩

theorem quotedNameRead {first last : Char} (quotes : closingQuote? first = some last) (filled : name ≠ [])
    (closed : last ∉ name) : itemName? (first :: (name ++ [last]) ++ rest) = some (name, rest) := by
  have run : run? (· != last) (name ++ last :: rest) = some (name, last :: rest) := by
    refine runRead filled (fun c member => ?_) (by simp)
    exact bne_iff_ne.mpr fun same => closed (same ▸ member)
  have text : first :: (name ++ [last]) ++ rest = first :: (name ++ last :: rest) := by simp
  rw [text, itemName?, quotes]
  simp only [quotedRun?, run]

theorem itemNameRead (form : NameForm written name) (apart : ∀ c ∈ rest.head?, isBlank c = true) :
    itemName? (written ++ rest) = some (name, rest) := by
  cases form with
  | quoted quotes filled closed => exact quotedNameRead quotes filled closed
  | bare filled plain =>
    cases written with
    | nil => contradiction
    | cons c written =>
      have unquoted : closingQuote? c = none := by
        have here := plain c List.mem_cons_self
        simp only [isBare, Bool.and_eq_true, Option.isNone_iff_eq_none] at here
        exact here.2
      rw [List.cons_append, itemName?, unquoted]
      exact runRead filled plain fun d head => by simp [apart d head]

end Name

section Default
variable {cs : List Char} {default : Option String}

theorem nestedLast (inside : Bool) (ends : endsNested inside cs = true) : cs.getLast? = some ')' := by
  fun_induction endsNested inside cs with
  | case1 => contradiction
  | case2 cs => simp_all
  | case3 c cs other ih => simp [List.getLast?_cons, ih ends]
  | case4 => contradiction
  | case5 c cs other ih => simp [List.getLast?_cons, ih ends]

theorem literalLast (ends : endsLiteral cs = true) : cs.getLast? = some '\'' := by
  fun_induction endsLiteral cs with
  | case1 => contradiction
  | case2 => rfl
  | case3 cs ih => simp [List.getLast?_cons, ih ends]
  | case4 => contradiction
  | case5 c cs _ _ _ ih => simp [List.getLast?_cons, ih ends]

theorem defaultEnds {value : List Char} (form : isDefault value = true) :
    (∀ c ∈ value.head?, isBlank c = false) ∧ ∀ c ∈ value.getLast?, isBlank c = false := by
  have lastIs {last : Char} (is : value.getLast? = some last) (notBlank : isBlank last = false) :
      ∀ c ∈ value.getLast?, isBlank c = false := by
    rw [is]
    exact fun c same => Option.some.inj same ▸ notBlank
  have behind {first last : Char} {cs : List Char} (text : value = first :: cs) (is : cs.getLast? = some last) :
      value.getLast? = some last := by
    simp [text, List.getLast?_cons, is]
  unfold isDefault at form
  split at form
  · exact absurd form Bool.false_ne_true
  · exact ⟨fun c first => Option.some.inj first ▸ rfl, lastIs (behind rfl (literalLast form)) (by decide)⟩
  · simp only [Bool.and_eq_true, beq_iff_eq] at form
    exact ⟨fun c first => Option.some.inj first ▸ rfl, lastIs (behind rfl form.1) (by decide)⟩
  · exact ⟨fun c first => Option.some.inj first ▸ rfl, lastIs (behind rfl (nestedLast false form)) (by decide)⟩
  · have solid : ∀ c ∈ value, isBlank c = false := by
      intro c member
      have here := List.all_eq_true.mp form c member
      simp only [Bool.and_eq_true, Bool.not_eq_true'] at here
      exact here.1
    exact ⟨fun c head => solid c (List.mem_of_mem_head? head), fun c last => solid c (List.mem_of_mem_getLast? last)⟩

theorem defaultForm : itemDefault? cs = some default ↔ DefaultForm default cs := by
  constructor
  · intro found
    rw [itemDefault?] at found
    split at found
    · rename_i blank
      cases found
      exact .absent (List.all_eq_true.mp blank)
    · simp only [Option.bind_eq_bind, Option.bind_eq_some_iff] at found
      obtain ⟨atGap, words, atValue, blanks, accepted⟩ := found
      split at accepted
      · rename_i form
        cases accepted
        obtain ⟨front, keyword, rfl⟩ := (wordsForm (by decide)).mp words
        obtain ⟨gap, apart, rfl, _⟩ := blanksForm.mp blanks
        obtain ⟨back, split, blank⟩ := trimEndForm atValue
        have text : front ++ (gap ++ atValue) = front ++ (gap ++ (trimEnd atValue ++ back)) := by
          rw [← split]
        rw [text]
        exact .given keyword apart form blank
      · contradiction
  · intro form
    cases form with
    | absent blank => rw [itemDefault?, if_pos (List.all_eq_true.mpr blank)]
    | @given front gap value back keyword apart form blank =>
      have filled : value ≠ [] := by
        rintro rfl
        contradiction
      have words : words? ["default"] (front ++ (gap ++ (value ++ back))) = some (gap ++ (value ++ back)) :=
        (wordsForm (by decide)).mpr ⟨front, keyword, rfl⟩
      have start : ∀ c ∈ (value ++ back).head?, isBlank c = false := firstLeft filled (defaultEnds form).1
      have blanks : blanks? (gap ++ (value ++ back)) = some (value ++ back) :=
        blanksForm.mpr ⟨gap, apart, rfl, start⟩
      have solid : ¬ (front ++ (gap ++ (value ++ back))).all isBlank = true := by
        cases value with
        | nil => contradiction
        | cons c value =>
          have first := (defaultEnds form).1 c rfl
          simp [first]
      rw [itemDefault?, if_neg solid, words, Option.bind_eq_bind, Option.bind_some, blanks]
      simp only [Option.bind_some, trimEndRead (defaultEnds form).2 blank, form, if_true]

end Default

structure Leads (letters : List Char) (cs : List Char) : Prop where
  apart : ∀ c ∈ cs.head?, isBlank c = true
  first : ∀ c ∈ (skipBlanks cs).head?, foldLetter c ∈ letters

section Tail
variable {letters cs rest : List Char} {keyword : String} {more : List String} {k : Char} {given : Bool}
  {behind : List Char → Prop}

theorem leadsMono {others : List Char} (leads : Leads letters cs) (within : letters ⊆ others) : Leads others cs :=
  ⟨leads.apart, fun c head => within (leads.first c head)⟩

theorem wordsAbsent (leads : Leads letters cs) (first : keyword.toList.head? = some k) (other : k ∉ letters) :
    words? (keyword :: more) cs = none := by
  by_contra found
  obtain ⟨rest, found⟩ := Option.ne_none_iff_exists'.mp found
  simp only [words?, Option.bind_eq_bind, Option.bind_eq_some_iff] at found
  obtain ⟨atWord, blanks, behind, word, _⟩ := found
  obtain ⟨gap, apart, rfl, start⟩ := blanksForm.mp blanks
  obtain ⟨written, rfl, same⟩ := wordForm.mp word
  cases written with
  | nil => simp [← same] at first
  | cons c written =>
    have solid : isBlank c = false := start c rfl
    have skipped : skipBlanks (gap ++ (c :: written ++ behind)) = c :: written ++ behind := by
      rw [skipBlanks, List.dropWhile_append_of_pos apart.blank, dropWhileKeeps start]
    have letter := leads.first c (by rw [skipped]; rfl)
    rw [← same] at first
    exact other (Option.some.inj first ▸ letter)

theorem spacedLeads {front : List Char} (known : isKeyword keyword = true)
    (spaced : Spaced (keyword :: more) front) (first : keyword.toList.head? = some k) (rest : List Char) :
    Leads [k] (front ++ rest) := by
  cases spaced with
  | @cons _ _ blanks written later apart same spaced =>
    have start := keywordStart known same (later ++ rest)
    have skipped : skipBlanks (blanks ++ (written ++ later) ++ rest) = written ++ (later ++ rest) := by
      rw [List.append_assoc, List.append_assoc, skipBlanks, List.dropWhile_append_of_pos apart.blank,
        dropWhileKeeps start]
    refine ⟨fun c head => ?_, fun c head => ?_⟩
    · rw [List.append_assoc] at head
      exact gapFirst apart _ c head
    · rw [skipped] at head
      cases written with
      | nil => simp [← same] at first
      | cons d written =>
        cases head
        rw [← same] at first
        exact List.mem_singleton.mpr (Option.some.inj first)

theorem flaggedLeads (known : isKeyword keyword = true) (first : keyword.toList.head? = some k)
    (later : ∀ rest, behind rest → Leads letters rest) (flagged : Flagged (keyword :: more) behind given cs) :
    Leads (k :: letters) cs := by
  cases flagged with
  | given spaced _ => exact leadsMono (spacedLeads known spaced first _) (by simp)
  | absent holds => exact leadsMono (later _ holds) (List.subset_cons_self k letters)

theorem flaggedRead (known : ∀ w ∈ keyword :: more, isKeyword w = true)
    (found : constraint (keyword :: more) cs = (given, rest)) (holds : behind rest) :
    Flagged (keyword :: more) behind given cs := by
  rw [constraint] at found
  split at found
  · rename_i words
    cases found
    obtain ⟨front, spaced, rfl⟩ := (wordsForm known).mp words
    exact .given spaced holds
  · cases found
    exact .absent holds

theorem flaggedForm (known : ∀ w ∈ keyword :: more, isKeyword w = true)
    (first : keyword.toList.head? = some k) (other : k ∉ letters)
    (later : ∀ rest, behind rest → Leads letters rest) (flagged : Flagged (keyword :: more) behind given cs) :
    ∃ rest, constraint (keyword :: more) cs = (given, rest) ∧ behind rest := by
  cases flagged with
  | @given text rest spaced holds =>
    refine ⟨rest, ?_, holds⟩
    rw [constraint, (wordsForm known).mpr ⟨text, spaced, rfl⟩]
  | absent holds =>
    refine ⟨cs, ?_, holds⟩
    rw [constraint, wordsAbsent (later cs holds) first other]

theorem defaultLeads {default : Option String} (form : DefaultForm default cs) : Leads ['d'] cs := by
  cases form with
  | absent blank =>
    have nothing : skipBlanks cs = [] := List.dropWhile_eq_nil_iff.mpr blank
    exact ⟨fun c head => blank c (List.mem_of_mem_head? head), by simp [nothing]⟩
  | given keyword => exact spacedLeads (by decide) keyword rfl _

theorem flaggedThen {other : List Char → Prop} {more : List Char} {keywords : List String}
    (step : ∀ rest, behind rest → other (rest ++ more)) (flagged : Flagged keywords behind given cs) :
    Flagged keywords other given (cs ++ more) := by
  cases flagged with
  | given spaced holds =>
    rw [List.append_assoc]
    exact .given spaced (step _ holds)
  | absent holds => exact .absent (step _ holds)

variable {c : Column}

theorem constrainedThen {other : List Char → Prop} {more : List Char}
    (step : ∀ rest, behind rest → other (rest ++ more)) (tail : Constrained c behind cs) :
    Constrained c other (cs ++ more) :=
  flaggedThen (fun _ => flaggedThen fun _ => flaggedThen fun _ => flaggedThen step) tail

/-- Each constraint begins with another letter than whatever may stand behind it, so it is taken where it is there
and passed over where it is not. -/
theorem constrainedForm (leads : ∀ rest, behind rest → Leads ['d'] rest) (tail : Constrained c behind cs) :
    Leads ['p', 'a', 'u', 'n', 'd'] cs ∧ ∃ key auto unique null,
      constraint ["primary", "key"] cs = (c.primaryKey, key) ∧
      constraint ["autoincrement"] key = (c.autoIncrement, auto) ∧
      constraint ["unique"] auto = (c.unique, unique) ∧
      constraint ["not", "null"] unique = (c.notNull, null) ∧ behind null := by
  have atNull (rest) (tail : Flagged ["not", "null"] behind c.notNull rest) : Leads ['n', 'd'] rest :=
    flaggedLeads (by decide) rfl leads tail
  have atUnique (rest) (tail : Flagged ["unique"] _ c.unique rest) : Leads ['u', 'n', 'd'] rest :=
    flaggedLeads (by decide) rfl atNull tail
  have atAuto (rest) (tail : Flagged ["autoincrement"] _ c.autoIncrement rest) : Leads ['a', 'u', 'n', 'd'] rest :=
    flaggedLeads (by decide) rfl atUnique tail
  refine ⟨flaggedLeads (by decide) rfl atAuto tail, ?_⟩
  obtain ⟨key, readKey, tail⟩ := flaggedForm (by decide) rfl (by decide) atAuto tail
  obtain ⟨auto, readAuto, tail⟩ := flaggedForm (by decide) rfl (by decide) atUnique tail
  obtain ⟨unique, readUnique, tail⟩ := flaggedForm (by decide) rfl (by decide) atNull tail
  obtain ⟨null, readNull, tail⟩ := flaggedForm (by decide) rfl (by decide) leads tail
  exact ⟨key, auto, unique, null, readKey, readAuto, readUnique, readNull, tail⟩

theorem constrainedRead {key auto unique null : List Char}
    (readKey : constraint ["primary", "key"] cs = (c.primaryKey, key))
    (readAuto : constraint ["autoincrement"] key = (c.autoIncrement, auto))
    (readUnique : constraint ["unique"] auto = (c.unique, unique))
    (readNull : constraint ["not", "null"] unique = (c.notNull, null)) (holds : behind null) :
    Constrained c behind cs :=
  flaggedRead (by decide) readKey <| flaggedRead (by decide) readAuto <| flaggedRead (by decide) readUnique <|
    flaggedRead (by decide) readNull holds

theorem columnUpTo {written name gap type tail : List Char} (named : NameForm written name) (apart : Gap gap)
    (filled : type ≠ []) (solid : ∀ t ∈ type, isBlank t = false)
    (leads : ∀ rest, behind rest → Leads ['d'] rest) (constrained : Constrained c behind tail) :
    ∃ null, behind null ∧ column? (written ++ (gap ++ (type ++ tail))) = (itemDefault? null).map fun default =>
      { Column.introspected (String.ofList name) (String.ofList type) with
        primaryKey := c.primaryKey, autoIncrement := c.autoIncrement, unique := c.unique, notNull := c.notNull,
        default } := by
  obtain ⟨tailLeads, key, auto, unique, null, readKey, readAuto, readUnique, readNull, holds⟩ :=
    constrainedForm leads constrained
  have start : ∀ t ∈ (type ++ tail).head?, isBlank t = false :=
    firstLeft filled fun t head => solid t (List.mem_of_mem_head? head)
  have blanks : blanks? (gap ++ (type ++ tail)) = some (type ++ tail) :=
    blanksForm.mpr ⟨gap, apart, rfl, start⟩
  have typed : run? (!isBlank ·) (type ++ tail) = some (type, tail) :=
    runRead filled (by simpa using solid) fun t head => by simp [tailLeads.apart t head]
  refine ⟨null, holds, ?_⟩
  rw [column?, itemNameRead named (gapFirst apart _)]
  simp only [Option.bind_eq_bind, Option.bind_some, blanks, typed, readKey, readAuto, readUnique, readNull]
  cases itemDefault? null <;> rfl

theorem columnForm {item : List Char} : column? item = some c ↔ ColumnForm item c := by
  constructor
  · intro found
    simp only [column?, Option.bind_eq_bind, Option.bind_eq_some_iff] at found
    obtain ⟨⟨name, atGap⟩, named, atType, blanks, ⟨type, tail⟩, typed, default, given, made⟩ := found
    obtain ⟨written, form, rfl⟩ := itemNameFound named
    obtain ⟨gap, apart, rfl, _⟩ := blanksForm.mp blanks
    obtain ⟨rfl, filled, solid, _⟩ := runForm.mp typed
    have behind : TailForm c tail := by
      cases made
      exact constrainedRead rfl rfl rfl rfl (defaultForm.mp given)
    cases made
    exact .item form apart filled (by simpa using solid) behind ⟨rfl, rfl, rfl, rfl⟩
  · intro form
    cases form with
    | @item written name gap type tail _ named apart filled solid behind read =>
      have constrained : Constrained c (DefaultForm c.default) tail := behind
      obtain ⟨null, default, made⟩ := columnUpTo named apart filled solid (fun _ => defaultLeads) constrained
      obtain ⟨name, type, field, valueType⟩ := read
      rw [made, defaultForm.mpr default]
      cases c
      simp_all [Column.introspected]

end Tail

end LiveSchema
