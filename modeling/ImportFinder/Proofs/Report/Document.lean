import ImportFinder.Proofs.Report.Json
import ImportFinder.Report

/-!
# The JSON report determines the result

Two results have the same JSON report only if they agree in all but the files that
were merely visited (`json_determines_result`). Since data is known from its JSON,
it remains that a result is known from its document: fields that may be left out
stand for empty values only, and a list that was never made is told from an empty
one (`document_inj`).

The texts that a report shows must be valid UTF-8, since stray bytes are
replaced.
-/

namespace ImportFinder

/-- The texts of a record that a report shows. -/
def FileRecord.texts (f : FileRecord) : List Text :=
  f.path :: f.hits.flatMap fun m => [m.content, m.name]

/-- The texts of a result that a report shows. -/
def Result.texts (r : Result) : List Text :=
  [r.sessionId, r.target.name, r.target.extension, r.root, r.mode.name] ++
    r.files.flatMap (·.texts) ++ r.skipped.flatMap fun s => [s.path, s.error]

namespace Report

namespace Naming

variable {n : Naming} {words : List String} {t u : Text} {fs gs : List (Text × Data)}

/-! ### Documents are known from their fields -/

/-- A field is left out for the empty text only. -/
theorem optional_append_inj (hlen : fs.length = gs.length)
    (h : n.optional words t ++ fs = n.optional words u ++ gs) : t = u ∧ fs = gs := by
  obtain ⟨hfield, hrest⟩ := List.append_inj' h hlen
  refine ⟨?_, hrest⟩
  cases t <;> cases u <;> simp_all [optional]

theorem target_inj {a b : Target} (h : n.target a = n.target b) : a = b := by
  obtain ⟨hname, hmore⟩ := List.cons.inj (Data.record.inj h)
  have hextension := optional_append_inj (Eq.refl 0) (congrArg (· ++ []) hmore)
  cases a
  cases b
  simp_all

theorem match_inj {a b : Match} (h : n.match_ a = n.match_ b) : a = b := by
  simp only [match_, Data.record.injEq, List.cons_append, List.nil_append,
    List.cons.injEq, Prod.mk.injEq, Data.int.injEq, Data.str.injEq, true_and] at h
  obtain ⟨hline, hcontent, hmore⟩ := h
  obtain ⟨hname, hcounts⟩ := optional_append_inj (by rfl) hmore
  simp only [List.cons.injEq, Prod.mk.injEq, Data.int.injEq, Data.bool.injEq, true_and,
    and_true] at hcounts
  obtain ⟨honLine, hinFile, hunused⟩ := hcounts
  cases a
  cases b
  simp_all

theorem skip_inj {a b : Skip} (h : n.skip a = n.skip b) : a = b := by
  simp only [skip, Data.record.injEq, List.cons.injEq, Prod.mk.injEq, Data.str.injEq, true_and,
    and_true] at h
  cases a
  cases b
  simp_all

/-- A list of matches is known, if one that was never made is told from an empty
    one. -/
theorem file_inj (hn : n.missing = .null) {a b : FileRecord} (h : n.file a = n.file b) :
    a = b := by
  simp only [file, Data.record.injEq, List.cons.injEq, Prod.mk.injEq, Data.str.injEq, true_and,
    and_true] at h
  obtain ⟨path, listed⟩ := a
  obtain ⟨path', listed'⟩ := b
  obtain ⟨rfl, hlisted⟩ := h
  have hmatches : listed = listed' := by
    cases listed with
    | none =>
      cases listed' with
      | none => rfl
      | some found => simp [hn] at hlisted
    | some found =>
      cases listed' with
      | none => simp [hn] at hlisted
      | some found' =>
        rw [(List.map_inj_right fun _ _ => match_inj).1 (Data.list.inj hlisted)]
  rw [hmatches]

theorem skips_append_inj {a b : List Skip} (hlen : fs.length = gs.length)
    (h : n.skips a ++ fs = n.skips b ++ gs) : a = b ∧ fs = gs := by
  obtain ⟨hfield, hrest⟩ := List.append_inj' h hlen
  refine ⟨?_, hrest⟩
  cases a with
  | nil =>
    cases b with
    | nil => rfl
    | cons _ b => exact absurd hfield (by simp [skips])
  | cons _ a =>
    cases b with
    | nil => exact absurd hfield (by simp [skips])
    | cons _ b =>
      have hlist := Data.list.inj (Prod.mk.inj (List.cons.inj hfield).1).2
      exact (List.map_inj_right fun _ _ => skip_inj).1 hlist

/-- All of a result but the files that were merely visited is known from its
    document. -/
theorem document_inj (hn : n.missing = .null) {r s : Result} (h : n.document r = n.document s) :
    { r with visited := [] } = { s with visited := [] } := by
  simp only [document, Data.record.injEq, List.cons_append, List.nil_append,
    List.cons.injEq, Prod.mk.injEq, Data.list.injEq, Data.str.injEq, true_and] at h
  obtain ⟨hid, htarget, hroot, hmode, hfiles, hmore⟩ := h
  obtain ⟨hskipped, htotals⟩ := skips_append_inj (by rfl) hmore
  simp only [List.cons.injEq, Prod.mk.injEq, Data.int.injEq, true_and, and_true] at htotals
  have htarget' := target_inj htarget
  have hfiles' := (List.map_inj_right fun _ _ => file_inj hn).1 hfiles
  have hmode' : r.mode = s.mode := congrArg MatchMode.mk hmode
  simp_all

/-! ### The texts of a document -/

open Json (Valid)

theorem valid_nil : Valid (Data.record []).texts :=
  Json.valid_record_iff.2 fun _ hf => absurd hf List.not_mem_nil

theorem valid_cons {key : Text} {d : Data} (hkey : Utf8.valid key = true) (hd : Valid d.texts)
    (hfs : Valid (Data.record fs).texts) : Valid (Data.record ((key, d) :: fs)).texts :=
  Json.valid_record_iff.2 (List.forall_mem_cons.2 ⟨⟨hkey, hd⟩, Json.valid_record_iff.1 hfs⟩)

theorem valid_str (ht : Utf8.valid t = true) : Valid (Data.str t).texts := by
  simpa [Valid, Data.texts] using ht

theorem valid_int (n : Int) : Valid (Data.int n).texts := by simp [Valid, Data.texts]

theorem valid_bool (b : Bool) : Valid (Data.bool b).texts := by simp [Valid, Data.texts]

theorem valid_optional (hkey : Utf8.valid (n.key words) = true) (ht : Utf8.valid t = true)
    (hfs : Valid (Data.record fs).texts) :
    Valid (Data.record (n.optional words t ++ fs)).texts := by
  cases t with
  | nil => exact hfs
  | cons b t => exact valid_cons hkey (valid_str ht) hfs

theorem valid_target {a : Target} (hname : Utf8.valid a.name = true)
    (hextension : Utf8.valid a.extension = true) : Valid (camel.target a).texts := by
  have hfields := valid_cons (by decide +kernel : Utf8.valid (camel.key ["name"]) = true)
    (valid_str hname)
    (valid_optional (by decide +kernel : Utf8.valid (camel.key ["extension"]) = true) hextension
      valid_nil)
  rwa [List.append_nil] at hfields

theorem valid_match {a : Match} (hcontent : Utf8.valid a.content = true)
    (hname : Utf8.valid a.name = true) : Valid (camel.match_ a).texts :=
  valid_cons (by decide +kernel) (valid_int _) <|
  valid_cons (by decide +kernel) (valid_str hcontent) <|
  valid_optional (by decide +kernel) hname <|
  valid_cons (by decide +kernel) (valid_int _) <|
  valid_cons (by decide +kernel) (valid_int _) <|
  valid_cons (by decide +kernel) (valid_bool _) valid_nil

theorem valid_file {f : FileRecord} (h : Valid f.texts) : Valid (camel.file f).texts := by
  rw [Valid, FileRecord.texts, List.forall_mem_cons] at h
  refine valid_cons (by decide +kernel) (valid_str h.1) <|
    valid_cons (by decide +kernel) ?_ valid_nil
  obtain ⟨path, listed⟩ := f
  cases listed with
  | none => simp [Valid, camel, Data.texts]
  | some found =>
    refine Json.valid_list_iff.2 fun d hd => ?_
    obtain ⟨a, ha, rfl⟩ := List.mem_map.1 hd
    have hmem : ∀ t ∈ [a.content, a.name], Utf8.valid t = true := fun t ht =>
      h.2 t (List.mem_flatMap.2 ⟨a, ha, ht⟩)
    exact valid_match (hmem _ (by simp)) (hmem _ (by simp))

theorem valid_skips {all : List Skip}
    (h : ∀ s ∈ all, Utf8.valid s.path = true ∧ Utf8.valid s.error = true)
    (hfs : Valid (Data.record fs).texts) : Valid (Data.record (camel.skips all ++ fs)).texts := by
  cases all with
  | nil => exact hfs
  | cons s all =>
    refine valid_cons (by decide +kernel) (Json.valid_list_iff.2 fun d hd => ?_) hfs
    obtain ⟨a, ha, rfl⟩ := List.mem_map.1 hd
    exact valid_cons (by decide +kernel) (valid_str (h a ha).1) <|
      valid_cons (by decide +kernel) (valid_str (h a ha).2) valid_nil

theorem valid_document {r : Result} (h : Valid r.texts) : Valid (camel.document r).texts := by
  rw [Valid, Result.texts, List.forall_mem_append, List.forall_mem_append] at h
  obtain ⟨⟨hown, hfiles⟩, hskipped⟩ := h
  have hfile : ∀ f ∈ r.files, Valid f.texts := fun f hf t ht =>
    hfiles t (List.mem_flatMap.2 ⟨f, hf, ht⟩)
  have hskip : ∀ s ∈ r.skipped, Utf8.valid s.path = true ∧ Utf8.valid s.error = true :=
    fun s hs =>
      ⟨hskipped _ (List.mem_flatMap.2 ⟨s, hs, by simp⟩),
        hskipped _ (List.mem_flatMap.2 ⟨s, hs, by simp⟩)⟩
  refine valid_cons (by decide +kernel) (valid_str (hown _ (by simp))) <|
    valid_cons (by decide +kernel) (valid_target (hown _ (by simp)) (hown _ (by simp))) <|
    valid_cons (by decide +kernel) (valid_str (hown _ (by simp))) <|
    valid_cons (by decide +kernel) (valid_str (hown _ (by simp))) <|
    valid_cons (by decide +kernel) (Json.valid_list_iff.2 fun d hd => ?_) <|
    valid_skips hskip <|
    valid_cons (by decide +kernel) (valid_int _) <|
    valid_cons (by decide +kernel) (valid_int _) <|
    valid_cons (by decide +kernel) (valid_int _) <|
    valid_cons (by decide +kernel) (valid_int _) <|
    valid_cons (by decide +kernel) (valid_int _) valid_nil
  obtain ⟨f, hf, rfl⟩ := List.mem_map.1 hd
  exact valid_file (hfile f hf)

end Naming

/-- Whatever the encoder for other notations and the output are like, two results whose
    texts are valid have the same JSON report if and only if they agree in all but the
    files that were merely visited. -/
theorem json_determines_result {e : Encoder} {w : Writer} {r s : Result}
    (hr : Json.Valid r.texts) (hs : Json.Valid s.texts) :
    (render e w { format := .json } r).content = (render e w { format := .json } s).content ↔
      { r with visited := [] } = { s with visited := [] } := by
  constructor
  · intro h
    have hends : Json.Ends [Text.newline] := Json.ends_newline rfl
    have hdocument := Json.readable e.stray _ (Naming.valid_document hr) _ 0 _ _
      (Naming.valid_document hs) hends hends h
    exact Naming.document_inj rfl hdocument.1
  · -- The files that were visited do not occur in the report.
    intro h
    have hsame : ∀ q : Result, render e w { format := .json } q =
        render e w { format := .json } { q with visited := [] } := fun _ => rfl
    rw [hsame r, h, ← hsame s]

/-- A result with one match on a line. -/
def lineResult (content : Text) (visited : List Text) : Result where
  sessionId := text "id"
  target := { name := text "u" }
  root := text "/p"
  mode := .path
  files := [{ path := text "/p/é.js", listed := some [{ line := 1, content }] }]
  visited

/-- An encoder that is never asked. -/
def silentEncoder : Encoder where
  encode _ _ := {}
  close _ _ := {}

/-- The JSON report of a result, on an output that takes everything. -/
def json (r : Result) : Text :=
  (render silentEncoder (fun _ => none) { format := .json } r).content

/-- An escaped character is not taken for a line that spells the escape out, and
    files that were visited make no difference. -/
theorem json_determines_result_sample :
    json (lineResult (text "<") []) ≠ json (lineResult (text "\\u003c") []) ∧
    json (lineResult (text "<") [text "/p/b.js"]) = json (lineResult (text "<") []) := by
  have hplain : Json.Valid (lineResult (text "<") []).texts := by decide +kernel
  have hspelt : Json.Valid (lineResult (text "\\u003c") []).texts := by decide +kernel
  refine ⟨fun h => ?_, (json_determines_result hplain hplain).2 rfl⟩
  exact absurd ((json_determines_result hplain hspelt).1 h) (by decide +kernel)

end Report

end ImportFinder
