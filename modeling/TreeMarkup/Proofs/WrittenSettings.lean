import TreeMarkup.Proofs.NamedValues
import TreeMarkup.Proofs.PageSetIssues

namespace TreeMarkup

open Value

inductive MultiKeyName
  | camelCase
  | snakeCase

namespace MultiKeyName

def text : MultiKeyName → Text
  | camelCase => "allowMultiKey"
  | snakeCase => "allow_multi_key"

end MultiKeyName

def Value.ofOption {α : Type} (write : α → Value) : Option α → Value
  | none => .null
  | some a => write a

def Context.toValue (context : Context) : Value := .map (context.map fun (n, v) ↦ (.text n, v))

def Options.fields (name : MultiKeyName) (options : Options) : List (Value × Value) :=
  [(.text name.text, .boolean options.allowMultiKey)]

def PageDefaults.fields (name : MultiKeyName) (defaults : PageDefaults) : List (Value × Value) :=
  [(.text "template", ofOption .text defaults.template),
    (.text "pretty", .boolean defaults.pretty),
    (.text name.text, .boolean defaults.allowMultiKey),
    (.text "context", defaults.context.toValue)]

def Page.fields (name : MultiKeyName) (page : Page) : List (Value × Value) :=
  [(.text "key", .text page.key),
    (.text "source", .text page.source),
    (.text "output", ofOption .text page.output),
    (.text "title", ofOption .text page.title),
    (.text "template", ofOption .text page.template),
    (.text "pretty", ofOption .boolean page.pretty),
    (.text name.text, ofOption .boolean page.allowMultiKey),
    (.text "context", page.context.toValue)]

def PageSet.fields (name : MultiKeyName) (pageName : Page → MultiKeyName) (set : PageSet) :
    List (Value × Value) :=
  [(.text "defaults", .map (set.defaults.fields name)),
    (.text "pages", .list (set.pages.map fun page ↦ .map (page.fields (pageName page))))]

namespace Value

variable {α : Type} {read : Value → Check α} {entries : List (Value × Value)} {name : Text}
  {v : Value} {x : α}

theorem fieldOr_of_lookup? {other : α} (hl : lookup? name entries = some v)
    (hv : read v = .valid x) : fieldOr name other read entries = .valid x := by
  rw [fieldOr_eq_valid_iff, hl]
  exact hv

theorem readOptional_ofOption {write : α → Value} {x : Option α}
    (hx : ∀ a ∈ x, read (write a) = .valid a) (hn : ∀ a, (write a).kind ≠ .null) :
    readOptional read (ofOption write x) = .valid x := by
  cases x with
  | none => rfl
  | some a =>
    change readOptional read (write a) = _
    rw [readOptional_of_ne (hn a), hx a rfl]
    rfl

theorem readOptional_text (x : Option Text) :
    readOptional readText (ofOption .text x) = .valid x :=
  readOptional_ofOption (fun _ _ ↦ rfl) fun _ h ↦ nomatch h

theorem readOptional_boolean (x : Option Bool) :
    readOptional readBoolean (ofOption .boolean x) = .valid x :=
  readOptional_ofOption (fun _ _ ↦ rfl) fun _ h ↦ nomatch h

theorem readEntries_texts (context : Context) :
    readEntries (context.map fun (n, v) ↦ (.text n, v)) = .valid context := by
  induction context with
  | nil => rfl
  | cons x context ih =>
    rw [List.map_cons, readEntries, ih]
    rfl

theorem foldl_putNamed (put : List (Text × Value)) (context : Context)
    (h : ((put ++ context).map Prod.fst).Nodup) :
    context.foldl (fun put (n, v) ↦ putNamed n v put) put = put ++ context := by
  -- what is put already comes first, and no name of it comes again
  induction context generalizing put with
  | nil => exact (List.append_nil put).symm
  | cons x context ih =>
    obtain ⟨name, value⟩ := x
    have hn : name ∉ put.map Prod.fst := by
      rw [List.map_append, List.map_cons] at h
      exact fun hm ↦ List.disjoint_of_nodup_append h hm List.mem_cons_self
    have ha : put ++ (name, value) :: context = (put ++ [(name, value)]) ++ context := by simp
    rw [ha] at h ⊢
    rw [List.foldl_cons]
    dsimp only
    rw [putNamed_of_not_mem value hn, ih _ h]

theorem readMapping_toValue {context : Context} (h : (context.map Prod.fst).Nodup) :
    context.toValue.readMapping = .valid context := by
  change Check.map _ (readEntries _) = _
  rw [readEntries_texts]
  exact congrArg Check.valid (foldl_putNamed [] context h)

end Value

theorem Options.read_fields (name : MultiKeyName) (options : Options) :
    read (.map (options.fields name)) = .valid options := by
  have hm : multiKeyField (options.fields name) = name.text := by cases name <;> rfl
  have hl : lookup? name.text (options.fields name) = some (.boolean options.allowMultiKey) := by
    cases name <;> rfl
  exact read_map_eq_valid_iff.2 (hm ▸ fieldOr_of_lookup? hl rfl)

theorem PageDefaults.isReadFrom_fields (name : MultiKeyName) {defaults : PageDefaults}
    (h : (defaults.context.map Prod.fst).Nodup) :
    defaults.IsReadFrom (defaults.fields name) := by
  have hm : multiKeyField (defaults.fields name) = name.text := by cases name <;> rfl
  have hl : lookup? name.text (defaults.fields name) = some (.boolean defaults.allowMultiKey) := by
    cases name <;> rfl
  have hc : lookup? "context" (defaults.fields name) = some defaults.context.toValue := by
    cases name <;> rfl
  exact
    { template := fieldOr_of_lookup? rfl (readOptional_text _)
      pretty := fieldOr_of_lookup? rfl rfl
      allowMultiKey := hm ▸ fieldOr_of_lookup? hl rfl
      context := fieldOr_of_lookup? hc (readMapping_toValue h) }

namespace Page

/-- What is true of every page that is read. -/
structure IsAccepted (page : Page) : Prop where
  key : isSlug page.key = true
  output : ∀ path ∈ page.output, staysInside path = true
  context : (page.context.map Prod.fst).Nodup

theorem isAccepted_of_read {v : Value} {page : Page} (h : read v = .valid page) :
    page.IsAccepted := by
  obtain ⟨hk, ho⟩ := settings_of_read h
  obtain ⟨fields, rfl⟩ := exists_map_of_readRecord h
  exact ⟨hk, ho, nodup_names_of_context (read_map_eq_valid_iff.1 h).context⟩

theorem readSlug_text {key : Text} (h : isSlug key = true) : readSlug (.text key) = .valid key :=
  if_pos h

theorem readOutput_text {path : Text} (h : staysInside path = true) :
    readOutput (.text path) = .valid path :=
  if_pos h

theorem isReadFrom_fields (name : MultiKeyName) {page : Page} (h : page.IsAccepted) :
    page.IsReadFrom (page.fields name) := by
  have hm : multiKeyField (page.fields name) = name.text := by cases name <;> rfl
  have hl : lookup? name.text (page.fields name) = some (ofOption .boolean page.allowMultiKey) := by
    cases name <;> rfl
  have hc : lookup? "context" (page.fields name) = some page.context.toValue := by
    cases name <;> rfl
  have ho : readOptional readOutput (ofOption .text page.output) = .valid page.output :=
    readOptional_ofOption (fun path hp ↦ readOutput_text (h.output path hp)) fun _ h ↦ nomatch h
  exact
    { key := required_eq_valid_iff.2 ⟨_, rfl, readSlug_text h.key⟩
      source := required_eq_valid_iff.2 ⟨_, rfl, rfl⟩
      output := fieldOr_of_lookup? rfl ho
      title := fieldOr_of_lookup? rfl (readOptional_text _)
      template := fieldOr_of_lookup? rfl (readOptional_text _)
      pretty := fieldOr_of_lookup? rfl (readOptional_boolean _)
      allowMultiKey := hm ▸ fieldOr_of_lookup? hl (readOptional_boolean _)
      context := fieldOr_of_lookup? hc (readMapping_toValue h.context) }

theorem read_fields (name : MultiKeyName) {page : Page} (h : page.IsAccepted) :
    read (.map (page.fields name)) = .valid page :=
  read_map_eq_valid_iff.2 (isReadFrom_fields name h)

end Page

namespace PageSet

theorem isAccepted_of_readsPages {items : List Value} {pages : List Page}
    (h : ReadsPages items pages) : ∀ page ∈ pages, page.IsAccepted := by
  intro page hp
  obtain ⟨v, hv⟩ :=
    Check.exists_of_mem_members (Check.members_eq_valid_iff (n := 0).2 h) page hp
  exact Page.isAccepted_of_read hv

theorem readsPages_fields (pageName : Page → MultiKeyName) {pages : List Page}
    (h : ∀ page ∈ pages, page.IsAccepted) :
    ReadsPages (pages.map fun page ↦ .map (page.fields (pageName page))) pages := by
  rw [ReadsPages, List.forall₂_map_left_iff, List.forall₂_same]
  exact fun page hp ↦ Page.read_fields (pageName page) (h page hp)

theorem readPages_fields (pageName : Page → MultiKeyName) {pages : List Page}
    (h : ∀ page ∈ pages, page.IsAccepted) (hn : (pages.map Page.key).Nodup) :
    readPages (.list (pages.map fun page ↦ .map (page.fields (pageName page)))) = .valid pages := by
  have hm := Check.members_eq_valid_iff (n := 0).2 (readsPages_fields pageName h)
  rw [readPages_eq rfl, hm, Check.bind, repeatedKey?_eq_none hn]

theorem read_fields (name : MultiKeyName) (pageName : Page → MultiKeyName) {set : PageSet}
    (hd : (set.defaults.context.map Prod.fst).Nodup) (hp : ∀ page ∈ set.pages, page.IsAccepted)
    (hn : (set.pages.map Page.key).Nodup) :
    read (.map (set.fields name pageName)) = .valid set := by
  have hr := PageDefaults.read_map_eq_valid_iff.2 (PageDefaults.isReadFrom_fields name hd)
  rw [read_map_eq_valid_iff]
  exact ⟨fieldOr_of_lookup? rfl hr, fieldOr_of_lookup? rfl (readPages_fields pageName hp hn)⟩

end PageSet

/-- Whatever is written of settings that were accepted is accepted as the same settings. -/
theorem accepted_settings_read_back (name : MultiKeyName) (pageName : Page → MultiKeyName) :
    (∀ v options, Options.read v = .valid options →
        Options.read (.map (options.fields name)) = .valid options) ∧
      (∀ v page, Page.read v = .valid page →
        Page.read (.map (page.fields name)) = .valid page) ∧
      ∀ v set, PageSet.read v = .valid set →
        PageSet.read (.map (set.fields name pageName)) = .valid set := by
  refine ⟨fun v options _ ↦ options.read_fields name, fun v page h ↦ ?_, fun v set h ↦ ?_⟩
  · exact Page.read_fields name (Page.isAccepted_of_read h)
  · obtain ⟨entries, rfl⟩ := exists_map_of_readRecord h
    obtain ⟨hd, hp⟩ := PageSet.read_map_eq_valid_iff.1 h
    obtain ⟨hr, hn⟩ := PageSet.readsPages_pageItems hp
    refine PageSet.read_fields name pageName (PageSet.nodup_names_defaults hd) ?_ hn
    exact PageSet.isAccepted_of_readsPages hr

def spelled : List UInt8 := [98, 121, 116, 101, 115]

/-- Fields of a page in other spellings than the written ones, and one that is none. -/
def looseFields : List (Value × Value) :=
  [(.text "source", .text "a.yaml"), (.text "key", .foreign (.bytes spelled)), (.text "pretty", .integer 1),
    (.text "allow_multi_key", .boolean false), (.text "allowMultiKey", .text "YES"),
    (.text "output", .text []), (.text "author", .null),
    (.text "context", .map [(.text "n", .integer 1), (.foreign (.byteArray spelled), .null)])]

def loosePage : Page :=
  { key := "bytes", source := "a.yaml", output := some [], pretty := some true,
    allowMultiKey := some true, context := [("n", .integer 1), ("bytes", .null)] }

theorem accepted_settings_read_back_loose :
    (Options.read (.map looseFields) = .valid ⟨true⟩ ∧
      Options.read (.map (Options.fields .snakeCase ⟨true⟩)) = .valid ⟨true⟩) ∧
    (Page.read (.map looseFields) = .valid loosePage ∧
      Page.read (.map (loosePage.fields .snakeCase)) = .valid loosePage) ∧
    PageSet.read (.map [(.text "pages", .tuple [.map looseFields])]) = .valid ⟨{}, [loosePage]⟩ ∧
      PageSet.read (.map (PageSet.fields .snakeCase (fun _ ↦ .camelCase) ⟨{}, [loosePage]⟩)) =
        .valid ⟨{}, [loosePage]⟩ := by
  have h := accepted_settings_read_back .snakeCase fun _ ↦ .camelCase
  have ho : Options.read (.map looseFields) = .valid ⟨true⟩ := rfl
  have hp : Page.read (.map looseFields) = .valid loosePage := rfl
  have hs : PageSet.read (.map [(.text "pages", .tuple [.map looseFields])]) =
    .valid ⟨{}, [loosePage]⟩ := rfl
  exact ⟨⟨ho, h.1 _ _ ho⟩, ⟨hp, h.2.1 _ _ hp⟩, hs, h.2.2 _ _ hs⟩

end TreeMarkup
