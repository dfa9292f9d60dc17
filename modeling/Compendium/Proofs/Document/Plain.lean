import Compendium.Document.Apparatus
import Compendium.Document.Control
import Compendium.Document.Presentation
import Compendium.Document.Style
import Compendium.Manifest
import Compendium.Proofs.ItemByItem
import Compendium.Proofs.Json.RoundTrip
import Compendium.Record

/-!
# Plain values are read back as they were written

Names, styles, settings and records hold no union that keeps what it does not understand. Writing
such a value and reading it again gives the same value; where a number has a bound, this is so for
every number that was read.
-/

namespace Compendium

open Json

/-! ## Names -/

@[simp] theorem inverse_textAlignment :
    Inverse TextAlignment.vocabulary.decode TextAlignment.vocabulary.encode :=
  inverse_vocabulary fun a => by cases a <;> rfl

@[simp] theorem inverse_statementKind :
    Inverse StatementKind.vocabulary.decode StatementKind.vocabulary.encode :=
  inverse_vocabulary fun a => by cases a <;> rfl

@[simp] theorem inverse_orderedStyle :
    Inverse OrderedStyle.vocabulary.decode OrderedStyle.vocabulary.encode :=
  inverse_vocabulary fun a => by cases a <;> rfl

@[simp] theorem inverse_bulletStyle :
    Inverse BulletStyle.vocabulary.decode BulletStyle.vocabulary.encode :=
  inverse_vocabulary fun a => by cases a <;> rfl

@[simp] theorem inverse_alertKind :
    Inverse AlertKind.vocabulary.decode AlertKind.vocabulary.encode :=
  inverse_vocabulary fun a => by cases a <;> rfl

@[simp] theorem inverse_annotationKind :
    Inverse AnnotationKind.vocabulary.decode AnnotationKind.vocabulary.encode :=
  inverse_vocabulary fun a => by cases a <;> rfl

@[simp] theorem inverse_documentKind :
    Inverse DocumentKind.vocabulary.decode DocumentKind.vocabulary.encode :=
  inverse_vocabulary fun a => by cases a <;> rfl

@[simp] theorem inverse_layoutStyle :
    Inverse LayoutStyle.vocabulary.decode LayoutStyle.vocabulary.encode :=
  inverse_vocabulary fun a => by cases a <;> rfl

@[simp] theorem inverse_feature : Inverse Feature.vocabulary.decode Feature.vocabulary.encode :=
  inverse_vocabulary fun a => by cases a <;> rfl

@[simp] theorem inverse_audience : Inverse Audience.vocabulary.decode Audience.vocabulary.encode :=
  inverse_vocabulary fun a => by cases a <;> rfl

@[simp] theorem inverse_formality :
    Inverse Formality.vocabulary.decode Formality.vocabulary.encode :=
  inverse_vocabulary fun a => by cases a <;> rfl

@[simp] theorem inverse_controlFlow :
    Inverse ControlFlow.vocabulary.decode ControlFlow.vocabulary.encode :=
  inverse_vocabulary fun a => by cases a <;> rfl

/-! ## Styles and settings -/

@[simp] theorem inverse_textStyle : Inverse TextStyle.decode TextStyle.encode := by
  intro m style
  cases style <;> rfl

@[simp] theorem inverse_listStyle : Inverse ListStyle.decode ListStyle.encode := by
  intro m style
  cases style with
  | ordered style | unordered style => simp [ListStyle.decode, ListStyle.encode, Tagged.payload]

@[simp] theorem inverse_formula : Inverse Formula.decode Formula.encode := by
  rintro m ⟨content, displayStyle⟩
  simp [Formula.decode, Formula.encode]

@[simp] theorem inverse_displayOptions : Inverse DisplayOptions.decode DisplayOptions.encode := by
  rintro m ⟨showTitle, numbered, cssClass⟩
  simp [DisplayOptions.decode, DisplayOptions.encode]

@[simp] theorem inverse_sideWidths : Inverse SideWidths.decode SideWidths.encode := by
  rintro m ⟨left, right, gap⟩
  simp [SideWidths.decode, SideWidths.encode]

@[simp] theorem inverse_annotationPosition :
    Inverse AnnotationPosition.decode AnnotationPosition.encode := by
  rintro m ⟨x, y⟩
  simp [AnnotationPosition.decode, AnnotationPosition.encode]

@[simp] theorem inverse_sectionRef : Inverse SectionRef.decode SectionRef.encode := by
  rintro m ⟨sectionId, showTitle⟩
  simp [SectionRef.decode, SectionRef.encode]

theorem exact_animation : Exact Animation.decode Animation.encode := by
  intro m j a h m'
  simp only [Animation.decode, Option.bind_eq_bind, Option.bind_eq_some_iff, Option.pure_def,
    Option.some.injEq] at h
  obtain ⟨f, _, enabled, _, duration, hduration, easing, _, rfl⟩ := h
  have hread := exact_word32.optionalField (by simp [nat]) hduration
  simp [Animation.decode, Animation.encode, hread]

theorem exact_presentation : Exact Presentation.decode Presentation.encode := by
  intro m j p h m'
  simp only [Presentation.decode, Option.bind_eq_bind, Option.bind_eq_some_iff, Option.pure_def,
    Option.some.injEq] at h
  obtain ⟨f, _, layout, _, features, _, audience, _, formality, _, animation, hanimation, rfl⟩ := h
  have hread := exact_animation.optionalField (by simp [Animation.encode]) hanimation
  have hfeatures := inverse_feature.list m' features
  simp [Presentation.decode, Presentation.encode, hread, hfeatures]

/-! ## Controls -/

@[simp] theorem inverse_controlValue : Inverse ControlValue.decode ControlValue.encode := by
  intro m value
  cases value <;> rfl

@[simp] theorem inverse_selectOption : Inverse SelectOption.decode SelectOption.encode := by
  rintro m ⟨value, label⟩
  simp [SelectOption.decode, SelectOption.encode]

/-! ## Bibliography and table of contents -/

theorem exact_bibEntry : Exact BibEntry.decode BibEntry.encode := by
  intro m j e h m'
  simp only [BibEntry.decode, Option.bind_eq_bind, Option.bind_eq_some_iff, Option.pure_def,
    Option.some.injEq] at h
  obtain ⟨f, _, key, _, authors, _, title, _, year, hyear, venue, _, url, _, rfl⟩ := h
  have hread := exact_word32.optionalField (by simp [nat]) hyear
  simp [BibEntry.decode, BibEntry.encode, strs, hread]

theorem TocEntry.encodeList_eq : TocEntry.encodeList = List.map TocEntry.encode :=
  eq_map_of_cons rfl fun _ _ => rfl

mutual

theorem TocEntry.decodeWithin_encode (m : Manner) : ∀ (e : TocEntry) (n : Nat),
    e.encode.depth < n → TocEntry.decodeWithin n m e.encode = some e
  | .mk sectionId title children, n, hn => by
    obtain ⟨level, rfl⟩ : ∃ level, n = level + 1 := ⟨n - 1, by omega⟩
    rw [TocEntry.encode] at hn ⊢
    have hdepth : depthList (TocEntry.encodeList children) < level := by
      simp only [field, List.cons_append, List.nil_append, depth, depthFields] at hn
      omega
    have hchildren := TocEntry.decodeWithin_encodeList m children level hdepth
    simp [TocEntry.decodeWithin, hchildren]

theorem TocEntry.decodeWithin_encodeList (m : Manner) : ∀ (entries : List TocEntry) (n : Nat),
    depthList (TocEntry.encodeList entries) < n →
      Decode.list (TocEntry.decodeWithin n) m (.arr (TocEntry.encodeList entries)) = some entries
  | [], n, _ => by
    rw [TocEntry.encodeList]
    rfl
  | e :: rest, n, hn => by
    rw [TocEntry.encodeList, depthList] at hn
    have he := TocEntry.decodeWithin_encode m e n (by omega)
    have hrest := TocEntry.decodeWithin_encodeList m rest n (by omega)
    rw [Decode.list] at hrest
    rw [TocEntry.encodeList, Decode.list, Decode.items, he, hrest]
    rfl

end

@[simp] theorem inverse_tocEntry : Inverse TocEntry.decode TocEntry.encode :=
  fun m e => TocEntry.decodeWithin_encode m e _ (Nat.lt_succ_self _)

@[simp] theorem inverse_tableOfContents :
    Inverse TableOfContents.decode TableOfContents.encode := by
  rintro m ⟨entries, autoGenerate⟩
  have hentries := inverse_tocEntry.list m entries
  simp [TableOfContents.decode, TableOfContents.encode, TocEntry.encodeList_eq, hentries]

/-! ## Optional values -/

@[simp] theorem inverse_optional_textAlignment :
    Inverse (Decode.optional TextAlignment.vocabulary.decode)
      (ofOption TextAlignment.vocabulary.encode) :=
  inverse_textAlignment.optional (by simp [Vocabulary.encode])

@[simp] theorem inverse_optional_displayOptions :
    Inverse (Decode.optional DisplayOptions.decode) (ofOption DisplayOptions.encode) :=
  inverse_displayOptions.optional (by simp [DisplayOptions.encode])

@[simp] theorem inverse_optional_sideWidths :
    Inverse (Decode.optional SideWidths.decode) (ofOption SideWidths.encode) :=
  inverse_sideWidths.optional (by simp [SideWidths.encode])

@[simp] theorem inverse_optional_annotationPosition :
    Inverse (Decode.optional AnnotationPosition.decode) (ofOption AnnotationPosition.encode) :=
  inverse_annotationPosition.optional (by simp [AnnotationPosition.encode])

@[simp] theorem inverse_optional_controlValue :
    Inverse (Decode.optional ControlValue.decode) (ofOption ControlValue.encode) :=
  inverse_controlValue.optional (by intro a; cases a <;> simp [ControlValue.encode])

@[simp] theorem inverse_optional_tableOfContents :
    Inverse (Decode.optional TableOfContents.decode) (ofOption TableOfContents.encode) :=
  inverse_tableOfContents.optional (by simp [TableOfContents.encode])

/-! ## Records and manifests -/

@[simp] theorem inverse_definition : Inverse Definition.decode Definition.encode := by
  rintro m ⟨name, docs, kind, members⟩
  simp [Definition.decode, Definition.encode, strs]

@[simp] theorem inverse_theorem : Inverse Theorem.decode Theorem.encode := by
  rintro m ⟨name, statement, description, proofSteps, tags⟩
  simp [Theorem.decode, Theorem.encode, strs]

theorem inverse_theory : Inverse Theory.decode Theory.encode := by
  rintro m ⟨name, definitions, theorems⟩
  have hdefinitions := inverse_definition.list m definitions
  have htheorems := inverse_theorem.list m theorems
  simp [Theory.decode, Theory.encode, hdefinitions, htheorems]

theorem inverse_bundle : Inverse Bundle.decode Bundle.encode := by
  rintro m ⟨content, version⟩
  have hcontent := Inverse.list (show Inverse Decode.any id from read_any) m content
  simp only [List.map_id] at hcontent
  simp [Bundle.decode, Bundle.encode, hcontent]

@[simp] theorem inverse_manifestFile : Inverse ManifestFile.decode ManifestFile.encode := by
  rintro m ⟨path, contentType⟩
  simp [ManifestFile.decode, ManifestFile.encode]

theorem exact_manifestEntry : Exact ManifestEntry.decode ManifestEntry.encode := by
  intro m j e h m'
  simp only [ManifestEntry.decode, Option.bind_eq_bind, Option.bind_eq_some_iff, Option.pure_def,
    Option.some.injEq] at h
  obtain ⟨f, _, id, _, name, _, itemCount, hcount, files, _, rfl⟩ := h
  have hread := exact_word32.defaulted hcount (fun _ => rfl)
  have hfiles := inverse_manifestFile.list m' files
  simp [ManifestEntry.decode, ManifestEntry.encode, hread, hfiles]

theorem exact_manifest : Exact Manifest.decode Manifest.encode := by
  intro m j a h m'
  simp only [Manifest.decode, Option.bind_eq_bind, Option.bind_eq_some_iff, Option.pure_def,
    Option.some.injEq] at h
  obtain ⟨f, _, theories, htheories, rfl⟩ := h
  have hread := exact_manifestEntry.list.defaulted htheories (fun _ => rfl) m'
  simp [Manifest.decode, Manifest.encode, hread]

end Compendium
