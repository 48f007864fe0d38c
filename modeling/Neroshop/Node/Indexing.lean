import Neroshop.Fetch
import Neroshop.Node.KeyMapper
import Neroshop.Node.Validate

/-!
# What the index holds

Where every statement executes, `add` gives `mappings` one row for each term of
an accepted document under its key, unless the term is there for that key.
-/

namespace Neroshop.Node

open Neroshop.Foundation Neroshop.Routing

def StagedTerm.row (staged : StagedTerm) : Mapping :=
  ⟨staged.searchTerm, staged.key, staged.map.content⟩

/-- A moment in which every statement executes. -/
def indexing (clock : Int) : Moment := ⟨clock, fun _ => true⟩

/-- A row that is written unless its term is there for its key. -/
def addRow (rows : List Mapping) (added : Mapping) : List Mapping :=
  if rows.any fun row =>
      row.searchTerm = added.searchTerm ∧ row.key = added.key
  then rows else rows ++ [added]

/-- The terms of a document, in the order in which they are staged. -/
def termsOf (key : String) (json : Json) (metadata : String) :
    List StagedTerm :=
  (searchTerms json metadata).map fun (map, searchTerm) =>
    ⟨map, searchTerm, key⟩

/-- The terms in the order in which `sync` reads them. -/
def syncOrder (mapper : KeyMapper) : KeyMapper :=
  termMaps.flatMap fun map => mapper.filter fun staged => staged.map = map

section Rows

variable {clock : Int} {rows : List Mapping}

theorem insertMapping_indexing {staged : StagedTerm}
    (hlength : (chars staged.key).length = 64) :
    insertMapping (indexing clock) rows staged = addRow rows staged.row := by
  rw [insertMapping, if_neg (not_not_intro hlength), addRow]
  simp only [indexing, true_and, if_true]
  rfl

theorem sync_indexing {mapper : KeyMapper}
    (hlength : ∀ staged ∈ mapper, (chars staged.key).length = 64) :
    KeyMapper.sync (indexing clock) mapper rows =
      ((syncOrder mapper).map StagedTerm.row).foldl addRow rows := by
  have horder : ∀ staged ∈ syncOrder mapper,
      (chars staged.key).length = 64 := by
    intro staged hstaged
    obtain ⟨map, -, hmem⟩ := List.mem_flatMap.mp hstaged
    exact hlength staged (List.mem_filter.mp hmem).1
  change (syncOrder mapper).foldl _ rows = _
  rw [List.foldl_map]
  exact List.foldl_ext _ _ _ fun rows staged hstaged =>
    insertMapping_indexing (horder staged hstaged)

theorem mem_syncOrder {mapper : KeyMapper} {staged : StagedTerm} :
    staged ∈ syncOrder mapper ↔ staged ∈ mapper := by
  simp only [syncOrder, List.mem_flatMap, List.mem_filter, decide_eq_true_eq]
  constructor
  · rintro ⟨map, -, hmem, -⟩
    exact hmem
  · intro hmem
    refine ⟨staged.map, ?_, hmem, rfl⟩
    cases staged.map <;> decide

/-- The metadata of a document is all that is asked of it. -/
theorem add_of_metadata {env : Externals} {key value metadata : String}
    {json : Json} (hparse : env.parse value = .ok json)
    (hmetadata : json.string? "metadata" = some metadata)
    (moment : Moment) (mapper : KeyMapper) :
    KeyMapper.add env moment mapper rows key value =
      .ok ([], KeyMapper.sync moment (mapper ++ termsOf key json metadata)
        rows) := by
  simp only [KeyMapper.add, hparse,
    Json.index_of_isObject (Json.isObject_of_string? hmetadata),
    Json.getString_getD_find?, hmetadata, bind, Except.bind, pure, Except.pure]
  rfl

theorem add_of_accepted {env : Externals} {key value metadata : String}
    {json : Json} (haccepted : Accepted env key value json metadata)
    (moment : Moment) (mapper : KeyMapper) :
    KeyMapper.add env moment mapper rows key value =
      .ok ([], KeyMapper.sync moment (mapper ++ termsOf key json metadata)
        rows) :=
  add_of_metadata haccepted.parsed haccepted.kind moment mapper

/-- What `add` writes where nothing has been staged before. -/
theorem add_indexing {env : Externals} {key value metadata : String}
    {json : Json} (haccepted : Accepted env key value json metadata) :
    KeyMapper.add env (indexing clock) [] rows key value =
      .ok ([], ((syncOrder (termsOf key json metadata)).map
        StagedTerm.row).foldl addRow rows) := by
  rw [add_of_accepted haccepted, List.nil_append, sync_indexing]
  intro staged hstaged
  obtain ⟨term, -, rfl⟩ := List.mem_map.mp hstaged
  exact haccepted.keyLength

/-- All rows under the keys of the added ones are of one kind. -/
structure OneKind (content : String) (rows added : List Mapping) : Prop where
  isAdded : ∀ row ∈ added, row.content = content
  isStored : ∀ row ∈ rows, ∀ other ∈ added, row.key = other.key →
    row.content = content

variable {content : String} {first : Mapping} {added : List Mapping}

/-- Then a row is left out only where it is there itself. -/
theorem OneKind.addRow_eq (h : OneKind content rows (first :: added)) :
    addRow rows first = if first ∈ rows then rows else rows ++ [first] := by
  have hfound : (rows.any fun row =>
      row.searchTerm = first.searchTerm ∧ row.key = first.key) = true ↔
        first ∈ rows := by
    rw [List.any_eq_true]
    constructor
    · rintro ⟨row, hrow, hsame⟩
      obtain ⟨hterm, hkey⟩ := of_decide_eq_true hsame
      have hcontent : row.content = first.content :=
        (h.isStored row hrow first List.mem_cons_self hkey).trans
          (h.isAdded first List.mem_cons_self).symm
      obtain rfl : row = first := by
        cases row
        cases first
        simp only [Mapping.mk.injEq]
        exact ⟨hterm, hkey, hcontent⟩
      exact hrow
    · intro hrow
      exact ⟨first, hrow, decide_eq_true ⟨rfl, rfl⟩⟩
  rw [addRow]
  exact if_congr hfound rfl rfl

theorem OneKind.mem_addRow (h : OneKind content rows (first :: added))
    {row : Mapping} : row ∈ addRow rows first ↔ row ∈ rows ∨ row = first := by
  rw [h.addRow_eq]
  split
  next hfirst => exact (or_iff_left_of_imp fun hrow => hrow ▸ hfirst).symm
  · rw [List.mem_append, List.mem_singleton]

theorem OneKind.next (h : OneKind content rows (first :: added)) :
    OneKind content (addRow rows first) added where
  isAdded row hrow := h.isAdded row (List.mem_cons_of_mem _ hrow)
  isStored row hrow other hother hkey := by
    rcases h.mem_addRow.mp hrow with hold | rfl
    · exact h.isStored row hold other (List.mem_cons_of_mem _ hother) hkey
    · exact h.isAdded row List.mem_cons_self

theorem OneKind.mem_foldl (h : OneKind content rows added) {row : Mapping} :
    row ∈ added.foldl addRow rows ↔ row ∈ rows ∨ row ∈ added := by
  induction added generalizing rows with
  | nil => simp
  | cons first added ih =>
      rw [List.foldl_cons, ih h.next, h.mem_addRow, List.mem_cons, or_assoc]

/-- A search finds the same row as in all rows one behind the other. -/
theorem OneKind.find?_foldl (h : OneKind content rows added)
    (test : Mapping → Bool) :
    (added.foldl addRow rows).find? test = (rows ++ added).find? test := by
  induction added generalizing rows with
  | nil => simp
  | cons first added ih =>
      rw [List.foldl_cons, ih h.next, h.addRow_eq,
        List.append_cons rows first added]
      split
      next hfirst =>
        by_cases htest : test first = true
        · obtain ⟨row, hrow⟩ : ∃ row, rows.find? test = some row :=
            Option.isSome_iff_exists.mp
              (List.find?_isSome.mpr ⟨first, hfirst, htest⟩)
          simp [List.find?_append, hrow]
        · simp [List.find?_append, htest]
      · rfl

theorem content_map {terms : List String} {map : TermMap}
    {term : TermMap × String} (hterm : term ∈ terms.map (map, ·)) :
    term.1.content = map.content := by
  obtain ⟨text, -, rfl⟩ := List.mem_map.mp hterm
  rfl

/-- The terms of a document are written with its kind. -/
theorem content_searchTerms {json : Json} {metadata : String}
    {term : TermMap × String} (hterm : term ∈ searchTerms json metadata) :
    term.1.content = metadata := by
  unfold searchTerms at hterm
  split at hterm
  · rcases List.mem_append.mp hterm with h | h <;> exact content_map h
  · simp only [productTerms, List.mem_append] at hterm
    rcases hterm with (((((((h | h) | h) | h) | h) | h) | h) | h) | h <;>
      exact content_map h
  · rcases List.mem_append.mp hterm with h | h <;> exact content_map h
  · exact content_map hterm
  · exact content_map hterm
  · exact content_map hterm
  · cases hterm

theorem mem_termRows {key metadata : String} {json : Json} {row : Mapping} :
    row ∈ (syncOrder (termsOf key json metadata)).map StagedTerm.row ↔
      row.key = key ∧ row.content = metadata ∧
        ∃ map, (map, row.searchTerm) ∈ searchTerms json metadata := by
  simp only [List.mem_map, mem_syncOrder, termsOf, exists_exists_and_eq_and]
  constructor
  · rintro ⟨⟨map, term⟩, hterm, rfl⟩
    exact ⟨rfl, content_searchTerms hterm, map, hterm⟩
  · rintro ⟨hkey, hcontent, map, hterm⟩
    refine ⟨(map, row.searchTerm), hterm, ?_⟩
    cases row
    simp only [StagedTerm.row, Mapping.mk.injEq, true_and]
    exact ⟨hkey.symm, (content_searchTerms hterm).trans hcontent.symm⟩

end Rows

/-! ## Documents of one kind -/

structure StoredDocument where
  key : String
  value : String
  json : Json

def StoredDocument.rows (document : StoredDocument) (metadata : String) :
    List Mapping :=
  (syncOrder (termsOf document.key document.json metadata)).map StagedTerm.row

def StoredDocument.hasTerm (document : StoredDocument) (metadata text : String) :
    Bool :=
  (searchTerms document.json metadata).any fun term => term.2 = text

theorem StoredDocument.hasTerm_iff {document : StoredDocument}
    {metadata text : String} :
    document.hasTerm metadata text = true ↔
      ∃ map, (map, text) ∈ searchTerms document.json metadata := by
  simp [StoredDocument.hasTerm]

theorem StoredDocument.mem_rows {document : StoredDocument} {metadata : String}
    {row : Mapping} :
    row ∈ document.rows metadata ↔
      row.key = document.key ∧ row.content = metadata ∧
        document.hasTerm metadata row.searchTerm = true := by
  rw [StoredDocument.rows, mem_termRows, StoredDocument.hasTerm_iff]

/-- The documents are indexed one after the other. -/
def indexDocuments (env : Externals) (clock : Int) (rows : List Mapping)
    (documents : List StoredDocument) :
    Except Fault (KeyMapper × List Mapping) :=
  documents.foldlM (fun state document => KeyMapper.add env (indexing clock)
    state.1 state.2 document.key document.value) ([], rows)

theorem indexDocuments_of_accepted {env : Externals} {clock : Int}
    {kind : String} {documents : List StoredDocument}
    (haccepted : ∀ document ∈ documents,
      Accepted env document.key document.value document.json kind)
    {rows : List Mapping} :
    indexDocuments env clock rows documents =
      .ok ([], (documents.flatMap fun document =>
        document.rows kind).foldl addRow rows) := by
  induction documents generalizing rows with
  | nil => rfl
  | cons document documents ih =>
      obtain ⟨hfirst, hrest⟩ := List.forall_mem_cons.mp haccepted
      rw [indexDocuments, List.foldlM_cons, List.flatMap_cons,
        List.foldl_append]
      dsimp only
      rw [add_indexing hfirst]
      exact ih hrest

/-- Accepted documents of a kind, in a node with rows of others besides. -/
structure Indexed (env : Externals) (kind : String) where
  documents : List StoredDocument
  others : List Mapping
  accepted : ∀ document ∈ documents,
    Accepted env document.key document.value document.json kind
  apart : ∀ row ∈ others, row.content ≠ kind ∧
    row.key ∉ documents.map StoredDocument.key

namespace Indexed

variable {env : Externals} {kind : String} (indexed : Indexed env kind)

def rows : List Mapping :=
  indexed.documents.flatMap fun document => document.rows kind

def mappings : List Mapping := indexed.rows.foldl addRow indexed.others

theorem mem_rows {row : Mapping} :
    row ∈ indexed.rows ↔ row.content = kind ∧ ∃ document ∈ indexed.documents,
      document.key = row.key ∧ document.hasTerm kind row.searchTerm = true := by
  simp only [rows, List.mem_flatMap, StoredDocument.mem_rows]
  constructor
  · rintro ⟨document, hdocument, hkey, hcontent, hterm⟩
    exact ⟨hcontent, document, hdocument, hkey.symm, hterm⟩
  · rintro ⟨hcontent, document, hdocument, hkey, hterm⟩
    exact ⟨document, hdocument, hkey.symm, hcontent, hterm⟩

theorem oneKind : OneKind kind indexed.others indexed.rows where
  isAdded row hrow := (indexed.mem_rows.mp hrow).1
  isStored row hrow other hother hkey := by
    obtain ⟨-, document, hdocument, hsame, -⟩ := indexed.mem_rows.mp hother
    exact absurd (List.mem_map.mpr ⟨document, hdocument, hsame.trans hkey.symm⟩)
      (indexed.apart row hrow).2

theorem indexDocuments_eq (clock : Int) :
    indexDocuments env clock indexed.others indexed.documents =
      .ok ([], indexed.mappings) :=
  indexDocuments_of_accepted indexed.accepted

theorem mem_mappings {row : Mapping} :
    row ∈ indexed.mappings ↔ row ∈ indexed.others ∨ row.content = kind ∧
      ∃ document ∈ indexed.documents, document.key = row.key ∧
        document.hasTerm kind row.searchTerm = true := by
  rw [mappings, indexed.oneKind.mem_foldl, indexed.mem_rows]

/-- Only rows of the kind are looked for. -/
theorem find?_mappings {test : Mapping → Bool}
    (htest : ∀ row, test row = true → row.content = kind) :
    indexed.mappings.find? test = indexed.rows.find? test := by
  have hnone : indexed.others.find? test = none :=
    List.find?_eq_none.mpr fun row hrow hfound =>
      (indexed.apart row hrow).1 (htest row hfound)
  rw [mappings, indexed.oneKind.find?_foldl, List.find?_append, hnone,
    Option.none_or]

end Indexed

end Neroshop.Node
