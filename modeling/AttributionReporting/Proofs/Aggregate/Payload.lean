import AttributionReporting.AggregateReport
import AttributionReporting.Proofs.Json.Print
import AttributionReporting.Proofs.Text.Numeral
import Std.Data.String.ToNat

/-!
# The payload tells the histogram

The payload of a report has one entry for each contribution, in the same order, with the bucket as
text and the value as a number, both in decimal digits without leading zeros (`IsEntry`). A number
has only one such numeral, and nothing in an entry runs into the next one, so that two histograms
with the same payload are the same (`cleartextPayload_exact`).
-/

namespace AttributionReporting

open Json

namespace Contribution

/-- What a payload says of a contribution. -/
def toJson (c : Contribution) : Json :=
  .record [("bucket", .text (toString c.bucket.toNat)), ("value", .integer c.value.toNat)]

/-- The text is the entry of a contribution, both of its numbers without leading zeros. -/
def IsEntry (c : Contribution) (entry : String) : Prop :=
  ∃ bucket value : String, Text.IsCanonical bucket.toList c.bucket.toNat ∧
    Text.IsCanonical value.toList c.value.toNat ∧
      entry = "\x7b\"bucket\":\"" ++ bucket ++ "\",\"value\":" ++ value ++ "\x7d"

theorem toJson_injective : Function.Injective toJson := by
  rintro ⟨bucket, value⟩ ⟨bucket', value'⟩ h
  simp only [toJson, record, List.map_cons, List.map_nil, Json.object.injEq, List.cons.injEq,
    Prod.mk.injEq, true_and, and_true, text_inj, integer_natCast_inj] at h
  obtain ⟨buckets, values⟩ := h
  rw [BitVec.eq_of_toNat_eq (Nat.repr_inj.1 buckets), UInt32.toNat_inj.1 values]

theorem isEntry_render (c : Contribution) : c.IsEntry c.toJson.render := by
  have digits (n : Nat) : (toString n).toList = Nat.toDigits 10 n := Nat.toList_repr
  have canonical (n : Nat) : Text.IsCanonical (toString n).toList n :=
    Text.isCanonical_iff.2 (digits n)
  refine ⟨toString c.bucket.toNat, toString c.value.toNat, canonical _, canonical _, ?_⟩
  have bucket : print (.text "bucket") = "\"bucket\"".toList := by rfl
  have value : print (.text "value") = "\"value\"".toList := by rfl
  rw [toJson, render, ← String.toList_inj, String.toList_ofList, print_record_pair, bucket, value,
    print_text_of_isDigit (canonical _).1.isDigit, print_integer, ← digits]
  simp

end Contribution

variable {contributions others : List Contribution}

theorem cleartextPayload_eq_render (contributions : List Contribution) :
    cleartextPayload contributions =
      (Json.record [("operation", .text "histogram"),
        ("data", .array (contributions.map Contribution.toJson))]).render := rfl

/-- The entries of a payload follow the contributions. -/
theorem cleartextPayload_eq_intercalate (contributions : List Contribution) :
    cleartextPayload contributions = "\x7b\"operation\":\"histogram\",\"data\":[" ++
      ",".intercalate (contributions.map fun c => c.toJson.render) ++ "]\x7d" := by
  have operation : print (.text "operation") = "\"operation\"".toList := by rfl
  have histogram : print (.text "histogram") = "\"histogram\"".toList := by rfl
  have data : print (.text "data") = "\"data\"".toList := by rfl
  have items (c : Contribution) : c.toJson.render.toList = print c.toJson := String.toList_ofList
  rw [cleartextPayload_eq_render, render, ← String.toList_inj, String.toList_ofList,
    print_record_pair, print.eq_6, printItems_eq_intercalate, operation, histogram, data]
  simp [items, Function.comp_def]

theorem cleartextPayload_inj :
    cleartextPayload contributions = cleartextPayload others ↔ contributions = others := by
  refine ⟨fun same => ?_, fun same => same ▸ rfl⟩
  rw [cleartextPayload_eq_render, cleartextPayload_eq_render] at same
  have same := Json.render_inj same
  simp only [record, List.map_cons, List.map_nil, Json.object.injEq, List.cons.injEq,
    Prod.mk.injEq, true_and, and_true, Json.array.injEq] at same
  exact List.map_injective_iff.2 Contribution.toJson_injective same

/-- The payload is made of the entries of the contributions, in their order, and no other
contributions have the same payload. -/
theorem cleartextPayload_exact (contributions : List Contribution) :
    (∃ entries, List.Forall₂ Contribution.IsEntry contributions entries ∧
        cleartextPayload contributions =
          "\x7b\"operation\":\"histogram\",\"data\":[" ++ ",".intercalate entries ++ "]\x7d") ∧
      ∀ others, cleartextPayload contributions = cleartextPayload others ↔
        contributions = others := by
  refine ⟨⟨_, ?_, cleartextPayload_eq_intercalate contributions⟩, fun _ => cleartextPayload_inj⟩
  rw [List.forall₂_map_right_iff, List.forall₂_same]
  exact fun c _ => c.isEntry_render

/-- A bucket may need all of its 128 bits. -/
example :
    cleartextPayload [⟨BitVec.allOnes 128, 1⟩, ⟨0, 32768⟩] =
      "\x7b\"operation\":\"histogram\",\"data\":[" ++
        "\x7b\"bucket\":\"340282366920938463463374607431768211455\",\"value\":1\x7d," ++
        "\x7b\"bucket\":\"0\",\"value\":32768\x7d]\x7d" := by
  cbv

end AttributionReporting
