import Criteria.Proofs.Settings.Precedence
import Criteria.Proofs.Toml.Rereading

namespace Criteria.Settings

open Disk (Path)
open Toml (Table Atom Flat Named Laid)

-- The layer in which every setting of its own is given.
def whole (s : Settings) : Layer where
  resolver := some ⟨some s.thresholds.candidate, some s.thresholds.strong, some s.thresholds.moderate⟩
  embedding := some ⟨some s.rules.flat, some s.rules.embedded⟩
  search := some ⟨some s.index⟩

def sections (s : Settings) : List (String × Table) :=
  [("resolver",
      [("candidate_threshold", .real s.thresholds.candidate),
        ("strong_threshold", .real s.thresholds.strong),
        ("moderate_threshold", .real s.thresholds.moderate)]),
    ("embedding",
      [("flat_prefixes", stems s.rules.flat), ("embedded_prefixes", stems s.rules.embedded)]),
    ("search", [("index", .text s.index)])]

theorem document_eq (s : Settings) : s.document = Toml.document s.sections := rfl

theorem flat_stems (names : List String) : Flat (stems names) := by
  refine .list (fun v hv => ?_)
  obtain ⟨name, _, rfl⟩ := List.mem_map.mp hv
  exact .text name

theorem flat_threshold {x : Float} (h : 0 ≤ x ∧ x ≤ 1) : Flat (.real x) := by
  obtain ⟨m, e, finite⟩ := Decimal.exists_magnitude h.1 h.2
  exact .atom (.real finite)

theorem laid_sections {s : Settings} (h : s.thresholds.Proper) : Laid s.sections where
  once := by simp [sections]
  named := by
    simp only [sections, List.forall_mem_cons]
    exact ⟨⟨rfl, by decide⟩, ⟨rfl, by decide⟩, ⟨rfl, by decide⟩, nofun⟩
  each := by simp [sections]
  fits := by
    have threshold := h.1
    simp only [List.forall_mem_cons] at threshold
    obtain ⟨candidate, strong, moderate, _⟩ := threshold
    simp only [sections, List.forall_mem_cons]
    exact ⟨⟨⟨⟨rfl, by decide⟩, flat_threshold candidate⟩, ⟨⟨rfl, by decide⟩, flat_threshold strong⟩,
        ⟨⟨rfl, by decide⟩, flat_threshold moderate⟩, nofun⟩,
      ⟨⟨⟨rfl, by decide⟩, flat_stems _⟩, ⟨⟨rfl, by decide⟩, flat_stems _⟩, nofun⟩,
      ⟨⟨⟨rfl, by decide⟩, .atom (.text _)⟩, nofun⟩, nofun⟩

theorem embedding?_document (s : Settings) :
    Layer.embedding? (.table [("flat_prefixes", stems s.rules.flat),
      ("embedded_prefixes", stems s.rules.embedded)]) = s.whole.embedding := by
  have flat : Layer.texts? (stems s.rules.flat) = some s.rules.flat := Layer.texts?_map_text _
  have embedded : Layer.texts? (stems s.rules.embedded) = some s.rules.embedded :=
    Layer.texts?_map_text _
  change ((Layer.texts? (stems s.rules.flat)).map some).bind _ = _
  rw [flat]
  change ((Layer.texts? (stems s.rules.embedded)).map some).bind _ = _
  rw [embedded]
  rfl

theorem ofTable_document (s : Settings) : Layer.ofTable s.document = some s.whole := by
  change ((Layer.embedding? _).map some).bind _ = _
  rw [embedding?_document]
  rfl

theorem parse_toml {s : Settings} (h : misfit? s.thresholds = none) :
    Layer.parse s.toml = some s.whole := by
  have laid := laid_sections (misfit?_eq_none_iff.mp h)
  rw [Layer.parse, toml, document_eq, Toml.read_write laid, ← document_eq]
  exact ofTable_document s

theorem effective_whole (s : Settings) : effective [s.whole] = { s with nearest := none } :=
  rfl

theorem printed_reloads (s : Settings) (file : Path) (h : misfit? s.thresholds = none) :
    ∃ l, Layer.parse s.toml = some l ∧
      merge [(file, l)] = .ok { s with nearest := file.parent? } := by
  refine ⟨s.whole, parse_toml h, ?_⟩
  have merged : merge ([file].zip [s.whole]) = _ := merge_zip rfl
  rw [effective_whole, h] at merged
  exact merged

def quotedStems : Settings where
  thresholds := ⟨1, 1, 0⟩
  rules := ⟨[], ["it's \"here\"", ""]⟩

theorem printed_reloads_quoted :
    misfit? quotedStems.thresholds = none ∧
      ∃ l, Layer.parse quotedStems.toml = some l ∧ merge [(⟨"/work/.atlasq.toml"⟩, l)] =
        .ok { quotedStems with nearest := some ⟨"/work"⟩ } := by
  have valid : misfit? quotedStems.thresholds = none := rfl
  exact ⟨valid, printed_reloads quotedStems ⟨"/work/.atlasq.toml"⟩ valid⟩

end Criteria.Settings
