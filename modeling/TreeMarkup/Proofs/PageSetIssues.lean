import Mathlib.Data.List.Forall2
import Mathlib.Data.List.Nodup
import Mathlib.Data.List.TakeWhile
import TreeMarkup.Proofs.ExplainedRefusals
import TreeMarkup.Proofs.PageOutputs

namespace TreeMarkup

namespace Check

variable {α : Type} {read : Value → Check α}

theorem members_eq_valid_iff {n : Nat} {vs : List Value} {xs : List α} :
    members read n vs = valid xs ↔ List.Forall₂ (fun v x ↦ read v = valid x) vs xs := by
  induction vs generalizing n xs with
  | nil =>
    rw [List.forall₂_nil_left_iff, members, valid.injEq, eq_comm]
  | cons v vs ih =>
    rw [members, apply_eq_valid_iff, List.forall₂_cons_left_iff]
    constructor
    · rintro ⟨g, ys, hg, hys, rfl⟩
      obtain ⟨x, hx, rfl⟩ := map_eq_valid hg
      exact ⟨x, ys, under_eq_valid_iff.1 hx, ih.1 hys, rfl⟩
    · rintro ⟨x, ys, hx, hys, rfl⟩
      refine ⟨List.cons x, ys, ?_, ih.2 hys, rfl⟩
      rw [hx]
      rfl

theorem issues_members (read : Value → Check α) (n : Nat) (vs : List Value) :
    (members read n vs).issues =
      (vs.zipIdx n).flatMap fun (v, i) ↦ (read v).issues.map (Issue.under (.index i)) := by
  induction vs generalizing n with
  | nil => rfl
  | cons v vs ih =>
    rw [members, issues_apply, issues_map, issues_under, ih, List.zipIdx_cons, List.flatMap_cons]

end Check

namespace Text

theorem strip_eq_self_iff {t : Text} : strip t = t ↔
    (∀ c ∈ t.head?, isBlank c = false) ∧ ∀ c ∈ t.getLast?, isBlank c = false := by
  have hb : ∀ u : Text, u.dropWhile isBlank = u ↔ ∀ c ∈ u.head?, isBlank c = false := by
    intro u
    rw [List.dropWhile_eq_self_iff]
    cases u <;> simp
  have he : stripEnd t = t ↔ ∀ c ∈ t.getLast?, isBlank c = false := by
    rw [stripEnd, List.reverse_eq_iff, hb, List.head?_reverse]
  constructor
  · intro h
    -- no character is lost at either end
    have hs : stripStart t = t := by
      have h₁ := length_dropWhile_le isBlank (stripStart t).reverse
      have h₂ := congrArg List.length h
      rw [strip, stripEnd, List.length_reverse] at h₂
      rw [List.length_reverse, h₂] at h₁
      exact (List.dropWhile_sublist _).eq_of_length_le h₁
    rw [strip, hs] at h
    exact ⟨(hb t).1 hs, he.1 h⟩
  · rintro ⟨hh, hl⟩
    rw [strip, stripStart, (hb t).2 hh, he.2 hl]

end Text

namespace PageSet

open Value

/-- The key of a page that is the first, in order, whose key an earlier page has. -/
def IsFirstRepeat (pages : List Page) (key : Text) : Prop :=
  ∃ before page after, pages = before ++ page :: after ∧ (before.map Page.key).Nodup ∧
    page.key = key ∧ key ∈ before.map Page.key

theorem repeatedKey?_of_seen {seen : List Text} {before : List Page} (pages : List Page)
    (hb : (before.map Page.key).Nodup) (hs : ∀ key, key ∈ seen ↔ key ∈ before.map Page.key) :
    match repeatedKey? seen pages with
    | some key => IsFirstRepeat (before ++ pages) key
    | none => ((before ++ pages).map Page.key).Nodup := by
  induction pages generalizing seen before with
  | nil => simpa [repeatedKey?] using hb
  | cons page pages ih =>
    rw [repeatedKey?]
    by_cases hp : page.key ∈ seen
    · rw [if_pos (List.contains_iff_mem.2 hp)]
      exact ⟨before, page, pages, rfl, hb, rfl, (hs _).1 hp⟩
    · rw [if_neg fun h ↦ hp (List.contains_iff_mem.1 h)]
      -- the page goes over to those before, where its key is new
      have hn : ((before ++ [page]).map Page.key).Nodup := by
        rw [List.map_append, List.map_singleton, ← List.concat_eq_append, List.nodup_concat]
        exact ⟨fun h ↦ hp ((hs _).2 h), hb⟩
      have hs' : ∀ key, key ∈ page.key :: seen ↔ key ∈ (before ++ [page]).map Page.key := by
        intro key
        rw [List.mem_cons, hs, List.map_append, List.mem_append, or_comm]
        simp
      have h := ih hn hs'
      rwa [List.append_assoc] at h

theorem repeatedKey?_spec (pages : List Page) :
    match repeatedKey? [] pages with
    | some key => IsFirstRepeat pages key
    | none => (pages.map Page.key).Nodup := by
  have hb : (([] : List Page).map Page.key).Nodup := List.nodup_nil
  exact repeatedKey?_of_seen pages hb fun _ ↦ Iff.rfl

theorem repeatedKey?_eq_none {pages : List Page} (h : (pages.map Page.key).Nodup) :
    repeatedKey? [] pages = none := by
  have hr := repeatedKey?_spec pages
  cases hk : repeatedKey? [] pages with
  | none => rfl
  | some key =>
    rw [hk] at hr
    obtain ⟨before, page, after, rfl, -, rfl, hm⟩ := hr
    rw [List.map_append, List.map_cons] at h
    exact absurd List.mem_cons_self (List.disjoint_of_nodup_append h hm)

abbrev ReadsPages (items : List Value) (pages : List Page) : Prop :=
  List.Forall₂ (fun v page ↦ Page.read v = .valid page) items pages

def defaultsIssues (entries : List (Value × Value)) : List Issue :=
  match lookup? "defaults" entries with
  | none => []
  | some v => (PageDefaults.read v).issues.map fun issue ↦
      { issue with location := "defaults" :: issue.location }

/-- The issues of each page by itself, located by its index. -/
def pageIssues (items : List Value) : List Issue :=
  items.zipIdx.flatMap fun (v, i) ↦ (Page.read v).issues.map fun issue ↦
    { issue with location := "pages" :: .index i :: issue.location }

/-- The issue of pages that are all in order but for a key that two of them have. -/
inductive RepeatIssues (items : List Value) : List Issue → Prop
  | some {pages : List Page} {key : Text} (hp : ReadsPages items pages)
      (hk : IsFirstRepeat pages key) : RepeatIssues items [⟨["pages"], .repeatedKey key⟩]
  | none (h : ∀ pages, ReadsPages items pages → (pages.map Page.key).Nodup) :
      RepeatIssues items []

theorem map_under_issues_members (items : List Value) :
    (Check.members Page.read 0 items).issues.map (Issue.under "pages") = pageIssues items := by
  rw [Check.issues_members, List.map_flatMap, pageIssues]
  simp only [List.map_map]
  rfl

variable {v : Value} {items : List Value}

theorem readPages_eq (h : v.members? = some items) :
    readPages v = (Check.members Page.read 0 items).bind fun pages ↦
      match repeatedKey? [] pages with
      | some key => .refused (.repeatedKey key)
      | none => .valid pages := by
  have hl : v.readList Page.read = Check.members Page.read 0 items := by
    simp only [readList, h]
  exact congrArg (Check.bind · _) hl

theorem issues_readPages (h : v.members? = some items) :
    ∃ repeats, RepeatIssues items repeats ∧
      ((readPages v).under "pages").issues = pageIssues items ++ repeats := by
  rw [readPages_eq h, Check.issues_under, ← map_under_issues_members]
  cases hm : Check.members Page.read 0 items with
  | invalid found =>
    refine ⟨[], .none fun pages hp ↦ ?_, (List.append_nil _).symm⟩
    rw [Check.members_eq_valid_iff.2 hp] at hm
    cases hm
  | valid pages =>
    have hp := Check.members_eq_valid_iff.1 hm
    have hr := repeatedKey?_spec pages
    dsimp only [Check.bind]
    cases hk : repeatedKey? [] pages with
    | some key =>
      rw [hk] at hr
      exact ⟨_, .some hp hr, rfl⟩
    | none =>
      rw [hk] at hr
      refine ⟨[], .none fun pages' hp' ↦ ?_, rfl⟩
      obtain rfl : pages' = pages :=
        Check.valid.inj ((Check.members_eq_valid_iff.2 hp').symm.trans hm)
      exact hr

theorem issues_read_map (entries : List (Value × Value)) :
    (read (.map entries)).issues = (fieldOr "defaults" {} PageDefaults.read entries).issues ++
      (fieldOr "pages" [] readPages entries).issues := by
  change (Check.apply (Check.apply _ _) _).issues = _
  rw [Check.issues_apply, Check.issues_apply]
  rfl

theorem issues_defaults (entries : List (Value × Value)) :
    (fieldOr "defaults" {} PageDefaults.read entries).issues = defaultsIssues entries := by
  unfold fieldOr defaultsIssues
  cases lookup? "defaults" entries with
  | none => rfl
  | some v => exact Check.issues_under _ _

theorem pages_of_readPages (h : v.members? = some items) {pages : List Page}
    (hv : readPages v = .valid pages) :
    ReadsPages items pages ∧ (pages.map Page.key).Nodup := by
  rw [readPages_eq h] at hv
  obtain ⟨found, hm, hv⟩ := Check.bind_eq_valid hv
  have hr := repeatedKey?_spec found
  split at hv
  · cases hv
  · rename_i hn
    cases hv
    rw [hn] at hr
    exact ⟨Check.members_eq_valid_iff.1 hm, hr⟩

def pageItems (entries : List (Value × Value)) : List Value :=
  ((lookup? "pages" entries).bind members?).getD []

theorem readsPages_pageItems {entries : List (Value × Value)} {pages : List Page}
    (h : fieldOr "pages" [] readPages entries = .valid pages) :
    ReadsPages (pageItems entries) pages ∧ (pages.map Page.key).Nodup := by
  rw [fieldOr_eq_valid_iff] at h
  unfold pageItems
  split at h
  · rename_i hl
    rw [hl, h]
    exact ⟨.nil, List.nodup_nil⟩
  · rename_i v hl
    rw [hl, Option.bind_some]
    cases hm : v.members? with
    | none =>
      rw [readPages, readList, hm] at h
      cases h
    | some items => exact pages_of_readPages hm h

/-- The issues of a page set are those of its parts, each located by its part, and at most one more
if every page is in order by itself. A page set without any is accepted with the pages as they are
read one by one, and the key of each page is a slug of its own. -/
theorem read_issues {entries : List (Value × Value)} {items : List Value}
    (h : lookup? "pages" entries = some (.list items) ∨
      lookup? "pages" entries = some (.tuple items)) :
    (∃ repeats, RepeatIssues items repeats ∧
        (read (.map entries)).issues = defaultsIssues entries ++ pageIssues items ++ repeats) ∧
      ((∃ set, read (.map entries) = .valid set) ↔ (read (.map entries)).issues = []) ∧
      ∀ set, read (.map entries) = .valid set →
        ReadsPages items set.pages ∧ (set.pages.map Page.key).Nodup ∧
          ∀ page ∈ set.pages, page.key ≠ [] ∧ '/' ∉ page.key ∧
            (∀ c ∈ page.key.head?, isBlank c = false) ∧
            ∀ c ∈ page.key.getLast?, isBlank c = false := by
  have hw : ∃ v, lookup? "pages" entries = some v ∧ v.members? = some items := by
    rcases h with h | h
    · exact ⟨_, h, rfl⟩
    · exact ⟨_, h, rfl⟩
  obtain ⟨v, hl, hv⟩ := hw
  refine ⟨?_, (isExplained_read _).issues_eq_nil_iff.symm, fun set hs ↦ ?_⟩
  · obtain ⟨repeats, hr, hi⟩ := issues_readPages hv
    refine ⟨repeats, hr, ?_⟩
    have hp : fieldOr "pages" [] readPages entries = (readPages v).under "pages" := by
      rw [fieldOr, hl]
    rw [issues_read_map, issues_defaults, hp, hi, List.append_assoc]
  · obtain ⟨-, hp⟩ := read_map_eq_valid_iff.1 hs
    rw [fieldOr_eq_valid_iff, hl] at hp
    obtain ⟨hp, hn⟩ := pages_of_readPages hv hp
    refine ⟨hp, hn, fun page hm ↦ ?_⟩
    have hk := (settings_of_read hs page hm).1
    simp only [Page.isSlug, Bool.and_eq_true, Bool.not_eq_true', List.isEmpty_eq_false_iff,
      List.contains_eq_mem, decide_eq_false_iff_not, beq_iff_eq, Text.strip_eq_self_iff] at hk
    exact ⟨hk.1.1, hk.1.2, hk.2⟩

def plainPage (key : Text) : Value :=
  .map [(.text "key", .text key), (.text "source", .text "a.yaml")]

def repeatingPages : List Value := [plainPage "a", plainPage "b", plainPage "b", plainPage "a"]

def repeatingSet : List (Value × Value) :=
  [(.text "defaults", .map [(.text "pretty", .text "maybe")]),
    (.text "pages", .list repeatingPages)]

theorem read_issues_repeatedKey :
    (lookup? "pages" repeatingSet = some (.list repeatingPages) ∧
      (read (.map repeatingSet)).issues =
        [⟨["defaults", "pretty"], .unreadableBoolean⟩, ⟨["pages"], .repeatedKey "b"⟩] ∧
      ∃ repeats, RepeatIssues repeatingPages repeats ∧ (read (.map repeatingSet)).issues =
        defaultsIssues repeatingSet ++ pageIssues repeatingPages ++ repeats) ∧
      ∃ set, read (.map [(.text "pages", .tuple [plainPage "a", plainPage "b"])]) = .valid set ∧
        (set.pages.map Page.key).Nodup := by
  have hl : lookup? "pages" repeatingSet = some (.list repeatingPages) := rfl
  have ht : ∃ set, read (.map [(.text "pages", .tuple [plainPage "a", plainPage "b"])]) =
      .valid set := ⟨_, rfl⟩
  obtain ⟨set, hs⟩ := ht
  refine ⟨⟨hl, rfl, (read_issues (.inl hl)).1⟩, set, hs, ?_⟩
  exact ((read_issues (.inr rfl)).2.2 set hs).2.1

end PageSet

end TreeMarkup
