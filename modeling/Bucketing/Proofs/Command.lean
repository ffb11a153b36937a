import Bucketing.Command.Basic
import Bucketing.Proofs.Bucketer.Domain
import Bucketing.Proofs.Value.Reading

/-! # Commands on a single value agree

Hashing a value checks it while it is read and hashed, bucketing it first checks the count and the
type. Both accept the same values, since what is read fits its type, and a type that cannot be
bucketed has no value with a hash.
-/
namespace Bucketing

namespace Numeral

theorem toString_eq_ofList_write (n : Int) : toString n = String.ofList (write n) := by
  cases n with
  | ofNat n =>
    change n.repr = _
    rw [Nat.repr_eq_ofList_toDigits]
    rfl
  | negSucc n =>
    change "-" ++ (n + 1).repr = _
    rw [Nat.repr_eq_ofList_toDigits, write, if_pos (Int.negSucc_lt_zero n), String.ofList_append]
    rfl

theorem toString_inj {m n : Int} : toString m = toString n ↔ m = n := by
  rw [toString_eq_ofList_write, toString_eq_ofList_write, String.ofList_inj, write_inj]

theorem toString_ne_null (n : Int) : toString n ≠ "NULL" := by
  rw [toString_eq_ofList_write, ← String.ofList_toList (s := "NULL"), Ne, String.ofList_inj]
  intro h
  have hSplit := congrArg splitSign h
  rw [splitSign_write] at hSplit
  have hDigits := isDigits_toDigits n.natAbs
  rw [(Prod.mk.inj hSplit).2] at hDigits
  cases hDigits

end Numeral

/-- A value that is read has a hash only if its type can be bucketed. -/
theorem Value.canBucket_of_hash {t : ColumnType} {text : String} {v : Value} {h : Int32}
    (hRead : read t text = .ok v) (hHash : v.hash = .ok h) : Bucketer.canBucket t = true := by
  rw [read_eq_ok_iff] at hRead
  cases t with
  | boolean =>
    obtain ⟨b, -, rfl⟩ := Option.map_eq_some_iff.mp (Except.ok.inj hRead)
    cases hHash
  | list item => cases hRead
  | map key value => cases hRead
  | _ => rfl

namespace Command

variable {count : Int32} {t : ColumnType} {text line : String}

theorem run_eq_ok_iff {command : Command} :
    command.run = .ok line ↔ ∃ answered, command.answer = .ok answered ∧ answered ++ "\n" = line :=
  Outcome.map_eq_ok_iff

theorem run_hash_eq_ok_iff : (hash t text).run = .ok line ↔
    ∃ v h, Value.read t text = .ok v ∧ v.hash = .ok h ∧ line = toString h.toInt ++ "\n" := by
  simp only [run_eq_ok_iff, answer, Outcome.bind_eq_ok_iff]
  constructor
  · rintro ⟨answered, ⟨v, hRead, h, hHash, ⟨⟩⟩, rfl⟩
    exact ⟨v, h, hRead, hHash, rfl⟩
  · rintro ⟨v, h, hRead, hHash, rfl⟩
    exact ⟨_, ⟨v, hRead, h, hHash, rfl⟩, rfl⟩

/-- The value is read as it is for its hash, and fits the bound type. -/
theorem run_bucket_eq_ok_iff (hCount : 0 < count) : (bucket count t text).run = .ok line ↔
    ∃ v h, Value.read t text = .ok v ∧ v.hash = .ok h ∧
      line = toString ((h &&& Int32.maxValue).toInt % count.toInt) ++ "\n" := by
  have hMake : Bucketer.make count = .ok ⟨count, hCount⟩ := by rw [Bucketer.make, dif_pos hCount]
  simp only [run_eq_ok_iff, answer, Outcome.bind_eq_ok_iff]
  constructor
  · rintro ⟨answered, ⟨b, hb, a, hBind, v, hRead, bucket, hAssign, hAnswer⟩, rfl⟩
    cases hMake.symm.trans hb
    obtain rfl := Bucketer.type_eq_of_bind hBind
    obtain ⟨hFits, hNull⟩ := Value.fits_of_read hRead
    rw [a.assign_of_fits hFits hNull] at hAssign
    obtain ⟨h, hHash, rfl⟩ := Outcome.map_eq_ok_iff.mp hAssign
    cases hAnswer
    refine ⟨v, h, hRead, hHash, ?_⟩
    rw [a.bucketer.toInt_ofHash, Bucketer.bucketer_eq_of_bind hBind]
  · rintro ⟨v, h, hRead, hHash, rfl⟩
    obtain ⟨a, hBind⟩ := Bucketer.exists_bind ⟨count, hCount⟩ (Value.canBucket_of_hash hRead hHash)
    obtain rfl := Bucketer.type_eq_of_bind hBind
    obtain ⟨hFits, hNull⟩ := Value.fits_of_read hRead
    have hAssign : a.assign v = .ok (some (a.bucketer.ofHash h)) := by
      rw [a.assign_of_fits hFits hNull, hHash]
      rfl
    refine ⟨_, ⟨_, hMake, a, hBind, v, hRead, _, hAssign, rfl⟩, ?_⟩
    rw [a.bucketer.toInt_ofHash, Bucketer.bucketer_eq_of_bind hBind]

theorem exists_fault_of_run_bucket (hCount : count ≤ 0) :
    ∃ fault, (bucket count t text).run = .error fault := by
  have hMake : Bucketer.make count = .error (.countNotPositive count) := by
    rw [Bucketer.make, dif_neg (Int32.not_lt.mpr hCount)]
  refine ⟨.countNotPositive count, ?_⟩
  rw [run, answer, hMake]
  rfl

/-- Bucketing a value answers exactly where hashing it does, by the low 31 bits of the hash that is
printed. It never answers that there is no bucket, and fails where the count is not positive. -/
theorem run_bucket (count : Int32) (t : ColumnType) (text : String) :
    (0 < count →
      ((∃ line, (bucket count t text).run = .ok line) ↔ ∃ line, (hash t text).run = .ok line) ∧
        (∀ line, (hash t text).run = .ok line → ∃ h : Int32, line = toString h.toInt ++ "\n") ∧
        (∀ h : Int32, (hash t text).run = .ok (toString h.toInt ++ "\n") →
          (bucket count t text).run =
            .ok (toString ((h &&& Int32.maxValue).toInt % count.toInt) ++ "\n")) ∧
        (bucket count t text).run ≠ .ok "NULL\n") ∧
      (count ≤ 0 → ∃ fault, (bucket count t text).run = .error fault) := by
  refine ⟨fun hCount => ⟨⟨?_, ?_⟩, ?_, ?_, ?_⟩, exists_fault_of_run_bucket⟩
  · rintro ⟨line, hRun⟩
    obtain ⟨v, h, hRead, hHash, -⟩ := (run_bucket_eq_ok_iff hCount).mp hRun
    exact ⟨_, run_hash_eq_ok_iff.mpr ⟨v, h, hRead, hHash, rfl⟩⟩
  · rintro ⟨line, hRun⟩
    obtain ⟨v, h, hRead, hHash, -⟩ := run_hash_eq_ok_iff.mp hRun
    exact ⟨_, (run_bucket_eq_ok_iff hCount).mpr ⟨v, h, hRead, hHash, rfl⟩⟩
  · intro line hRun
    obtain ⟨-, h, -, -, hLine⟩ := run_hash_eq_ok_iff.mp hRun
    exact ⟨h, hLine⟩
  · intro h hRun
    obtain ⟨v, k, hRead, hHash, hLine⟩ := run_hash_eq_ok_iff.mp hRun
    rw [String.append_left_inj, Numeral.toString_inj, Int32.toInt_inj] at hLine
    subst hLine
    exact (run_bucket_eq_ok_iff hCount).mpr ⟨v, h, hRead, hHash, rfl⟩
  · intro hRun
    obtain ⟨-, h, -, -, hLine⟩ := (run_bucket_eq_ok_iff hCount).mp hRun
    rw [show "NULL\n" = "NULL" ++ "\n" from rfl, String.append_left_inj] at hLine
    exact Numeral.toString_ne_null _ hLine.symm

/-- A hash below zero. -/
theorem run_bucket_price :
    (hash (.decimal 9 2) "14.20").run = .ok "-500754589\n" ∧
      (bucket 100 (.decimal 9 2) "14.20").run = .ok "59\n" ∧
      ∃ fault, (bucket 0 (.decimal 9 2) "14.20").run = .error fault := by
  have hHash : (hash (.decimal 9 2) "14.20").run = .ok "-500754589\n" := by rfl
  obtain ⟨-, -, hBucket, -⟩ := (run_bucket 100 (.decimal 9 2) "14.20").1 (by decide)
  exact ⟨hHash, hBucket (-500754589) hHash, (run_bucket 0 (.decimal 9 2) "14.20").2 (by decide)⟩

end Command

end Bucketing
