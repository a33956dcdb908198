import TypeSketch.Command.Inputs
import TypeSketch.Proofs.Files.Disks
import TypeSketch.Proofs.Files.Scripts
import TypeSketch.Proofs.Lists.Related
import TypeSketch.Proofs.Names.CamelCase
import TypeSketch.Proofs.Names.Tokens

/-!
# Names of the Classes of Documents

A document that comes without a name for its class is named after its file, in upper camel
case and with its number behind if there are several in the file. Of one file, documents with
different numbers get different names. Of different files, the names can be the same: the
directories are left out, much of the spelling is lost in upper camel case, and a number behind
a name can come from the file as well.

No such name has an underscore in it, so no document is named like the index of a store.

A file may be read more than once. What is read of it is the same each time, as nothing is
written between, so documents of one file with one number are one document.

## Main definitions

* `Document.IsNumberedAs`: A class name is that of a stem with a number.

## Theorems

* `InputOptions.value_eq_of_mem_load`: Documents of one file with one number.
* `Document.className_ne_init`: No document is named like the index.
* `Document.index_eq_of_className_eq`: Documents of one file are told apart by their numbers.
* `Document.cases_of_className_eq`: When two documents have one name.
-/

namespace TypeSketch

namespace InputOptions

variable {options : InputOptions} {source text chunk : String} {index : Nat}
  {found : List Document} {d d' : Document}

/-- What a document is depends on where it came from only by its source and its number. -/
theorem of_document_eq_ok (h : options.document source index chunk = .ok d) :
    d.source = source ∧ d.index = index ∧
      ∀ other d', options.document other index chunk = .ok d' → d'.value = d.value := by
  unfold document at h ⊢
  cases hparse : Json.parse chunk with
  | error error =>
    rw [hparse] at h
    cases h
  | ok json =>
    rw [hparse] at h
    -- The file and the number of a document are in its errors only, so they do not matter where
    -- there is none.
    cases hpointer : options.pointer with
    | none =>
      rw [hpointer] at h
      cases h
      refine ⟨rfl, rfl, fun other d' h' => ?_⟩
      cases h'
      rfl
    | some pointer =>
      rw [hpointer] at h
      cases hpart : json.pointer? pointer with
      | none => simp [hpart, bind, Except.bind, Except.mapError] at h
      | some part =>
        simp only [bind, Except.bind, Except.mapError, hpart] at h ⊢
        cases h
        refine ⟨rfl, rfl, fun other d' h' => ?_⟩
        cases h'
        rfl

/-- A document in the text of a file is made of the part of the text that has its number. -/
theorem exists_chunk_of_mem_documents (h : options.documents source text = .ok found)
    (hd : d ∈ found) : ∃ chunk, (options.chunks text)[d.index]? = some chunk ∧
      d.source = source ∧ options.document source d.index chunk = .ok d := by
  rcases exists_mem_left_of_forall₂ (forall₂_of_mapM_eq_ok h) hd with ⟨⟨chunk, index⟩, hmem, hdoc⟩
  rcases of_document_eq_ok hdoc with ⟨hsource, rfl, _⟩
  exact ⟨chunk, List.mk_mem_zipIdx_iff_getElem?.mp hmem, hsource, hdoc⟩

/-- A document that has been read is one in the text of its file. -/
theorem exists_text_of_mem_read {sources : List String} {world after : World}
    (h : (options.read sources).run world = (.ok found, after)) (hd : d ∈ found) :
    ∃ text documents, world.disk.readText d.source = .ok text ∧
      options.documents d.source text = .ok documents ∧ d ∈ documents := by
  induction sources generalizing found with
  | nil =>
    cases h
    exact absurd hd List.not_mem_nil
  | cons source rest ih =>
    rw [read, Script.run_bind, Script.run_readText] at h
    dsimp only at h
    -- Reading stops at the first file that fails, so all files in front of the rest have been read.
    cases htext : world.disk.readText source with
    | error error =>
      rw [htext] at h
      cases h
    | ok text =>
      rw [htext] at h
      dsimp only at h
      cases hdocuments : options.documents source text with
      | error error =>
        rw [hdocuments] at h
        cases h
      | ok documents =>
        rw [hdocuments] at h
        dsimp only at h
        rw [Script.run_bind] at h
        rcases hrest : (options.read rest).run world with ⟨_ | later, last⟩
        · rw [hrest] at h
          cases h
        · rw [hrest] at h
          cases h
          -- The document is one of this file or of a later one.
          rcases List.mem_append.mp hd with hd | hd
          · rcases exists_chunk_of_mem_documents hdocuments hd with ⟨_, _, rfl, _⟩
            exact ⟨text, documents, htext, hdocuments, hd⟩
          · exact ih hrest hd

/-- Documents that have been read from one file with one number are the same value. -/
theorem value_eq_of_mem_load {world after : World}
    (h : options.load.run world = (.ok found, after)) (hd : d ∈ found) (hd' : d' ∈ found)
    (hshared : d.sharesSource d' = true) (hindex : d.index = d'.index) : d'.value = d.value := by
  unfold load at h
  rw [Script.run_bind] at h
  rcases hpaths : (paths options.inputs).run world with ⟨_ | sources, seen⟩ <;> rw [hpaths] at h
  · cases h
  · rcases exists_text_of_mem_read h hd with ⟨text, documents, htext, hdocuments, hmem⟩
    rcases exists_text_of_mem_read h hd' with ⟨text', documents', htext', hdocuments', hmem'⟩
    -- Two spellings of one path lead to one text.
    have hnames : Path.names d.source = Path.names d'.source := by
      rw [Path.names_eq_filter_components, decide_eq_true_eq.mp hshared,
        ← Path.names_eq_filter_components]
    obtain rfl := Disk.readText_inj_of_names_eq htext htext' hnames
    rcases exists_chunk_of_mem_documents hdocuments hmem with ⟨chunk, hchunk, _, hdocument⟩
    rcases exists_chunk_of_mem_documents hdocuments' hmem' with ⟨chunk', hchunk', _, hdocument'⟩
    -- The two documents have one number, so they are one chunk of the text.
    rw [← hindex, hchunk, Option.some.injEq] at hchunk'
    subst hchunk'
    rw [← hindex] at hdocument'
    exact (of_document_eq_ok hdocument).2.2 d'.source d' hdocument'

end InputOptions

namespace Document

open Naming

variable {documents : List Document} {d d' : Document}

/-- A class name is that of a stem, perhaps with digits behind. -/
def IsNumberedAs (name number source : String) : Prop :=
  (∀ c ∈ number.toList, c.isDigit = true) ∧
    name = upperCamel ((Path.stem? source).getD "") ++ number

theorem exists_isNumberedAs (documents : List Document) (d : Document) :
    ∃ number, IsNumberedAs (d.className documents) number d.source := by
  unfold className
  dsimp only
  split
  · exact ⟨toString (d.index + 1), fun _ => isDigit_of_mem_toString, rfl⟩
  · exact ⟨"", by simp, String.append_empty.symm⟩

/-- No document is named like the index of a store. -/
theorem className_ne_init (documents : List Document) (d : Document) :
    d.className documents ≠ "__init__" := by
  rcases exists_isNumberedAs documents d with ⟨number, hdigits, hname⟩
  intro heq
  have hmem : '_' ∈ (d.className documents).toList := by
    rw [heq]
    decide
  rw [hname, String.toList_append] at hmem
  rcases List.mem_append.mp hmem with hmem | hmem
  · exact underscore_not_mem_upperCamel _ hmem
  · exact absurd (hdigits _ hmem) (by decide)

theorem stem?_eq_of_components_eq {source other : String}
    (h : Path.components source = Path.components other) : Path.stem? source = Path.stem? other := by
  rw [Path.stem?, Path.stem?, Path.fileName?, Path.fileName?, h]

/-- Documents of one file that have one name have one number. -/
theorem index_eq_of_className_eq (hd : d ∈ documents) (hd' : d' ∈ documents)
    (hshared : d.sharesSource d' = true) (h : d.className documents = d'.className documents) :
    d.index = d'.index := by
  have hcomponents : Path.components d.source = Path.components d'.source :=
    decide_eq_true_eq.mp hshared
  -- The two documents share their source with the same documents, so they are named alike.
  have hsame : d'.sharesSource = d.sharesSource := by
    funext other
    rw [sharesSource, sharesSource, hcomponents]
  have hself : d.sharesSource d = true := decide_eq_true rfl
  unfold className at h
  dsimp only at h
  rw [hsame, stem?_eq_of_components_eq hcomponents] at h
  -- The number of the document is in its name if its file has several documents.
  split at h
  · rw [String.append_right_inj] at h
    exact Nat.succ.inj (toString_injective h)
  · -- There is only one document of this file.
    next hone =>
    rw [List.countP_eq_length_filter] at hone
    have hmem := List.mem_filter.mpr ⟨hd, hself⟩
    have hmem' := List.mem_filter.mpr ⟨hd', hshared⟩
    rcases hfilter : documents.filter d.sharesSource with _ | ⟨only, _ | ⟨next, rest⟩⟩
    · rw [hfilter] at hmem
      exact absurd hmem List.not_mem_nil
    · rw [hfilter] at hmem hmem'
      rw [List.mem_singleton.mp hmem, List.mem_singleton.mp hmem']
    · rw [hfilter] at hone
      simp only [List.length_cons] at hone
      omega

/-- Two documents that have one name are one document of one file, or they are of files whose
    stems are the same in upper camel case, up to digits behind. -/
theorem cases_of_className_eq (hd : d ∈ documents) (hd' : d' ∈ documents)
    (h : d.className documents = d'.className documents) :
    (d.sharesSource d' = true ∧ d.index = d'.index) ∨
      d.sharesSource d' = false ∧ ∃ number number',
        IsNumberedAs (d.className documents) number d.source ∧
        IsNumberedAs (d.className documents) number' d'.source := by
  by_cases hshared : d.sharesSource d' = true
  · exact Or.inl ⟨hshared, index_eq_of_className_eq hd hd' hshared h⟩
  · rcases exists_isNumberedAs documents d with ⟨number, hnumber⟩
    rcases exists_isNumberedAs documents d' with ⟨number', hnumber'⟩
    rw [← h] at hnumber'
    exact Or.inr ⟨Bool.eq_false_iff.mpr hshared, number, number', hnumber, hnumber'⟩

end Document

end TypeSketch
