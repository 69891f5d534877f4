import TemplateExpr.Proofs.Caching.Ledger

namespace TemplateExpr.Cache

variable {m n : Nat}

theorem recent_suffix (h : m ≤ n) (sources : List String) :
    recent m sources <:+ recent n sources :=
  List.drop_suffix_drop_left _ (Nat.sub_le_sub_left h _)

theorem keys_run_suffix (h : m ≤ n) (requests : List Request) :
    ((ofCapacity m true).run requests).keys <:+ ((ofCapacity n true).run requests).keys := by
  rw [(run_holds m requests).keys, (run_holds n requests).keys, run_capacity, run_capacity]
  exact recent_suffix h (served requests)

theorem contains_run_of_le (h : m ≤ n) (requests : List Request) {source : String}
    (hsource : ((ofCapacity m true).run requests).contains source = true) :
    ((ofCapacity n true).run requests).contains source = true :=
  contains_iff.2 ((keys_run_suffix h requests).subset (contains_iff.1 hsource))

theorem hits_run_le (h : m ≤ n) (requests : List Request) :
    ((ofCapacity m true).run requests).hits ≤ ((ofCapacity n true).run requests).hits := by
  induction requests using List.reverseRecOn with
  | nil => exact Nat.le_refl _
  | append_singleton requests r ih =>
      rw [run_concat, run_concat]
      cases r with
      | get source | evaluate source context =>
          rw [after, after, hits_get (run_holds m requests).enabled,
            hits_get (run_holds n requests).enabled]
          split
          · rename_i hsmall
            rw [if_pos (contains_run_of_le h requests hsmall)]
            exact Nat.succ_le_succ ih
          · exact Nat.le_add_right_of_le ih
      | contains source | size | stats => exact ih
      | clear => exact Nat.le_refl _

/-- After the same requests a larger cache holds what a smaller one holds, in the same order and perhaps
with older sources in front of it, and has had at least as many hits. -/
theorem run_inclusion (h : m ≤ n) (requests : List Request) :
    let small := (ofCapacity m true).run requests
    let large := (ofCapacity n true).run requests
    small.keys <:+ large.keys ∧
      (∀ source, small.contains source = true → large.contains source = true) ∧
      small.hits ≤ large.hits :=
  ⟨keys_run_suffix h requests, fun _ => contains_run_of_le h requests, hits_run_le h requests⟩

theorem run_inclusion_one :
    let requests : List Request := [.get "x", .get "y", .get "x"]
    let small := (ofCapacity 1 true).run requests
    let large := (ofCapacity 2 true).run requests
    small.keys = ["x"] ∧ large.keys = ["y", "x"] ∧ small.hits = 0 ∧ large.hits = 1 ∧
      small.keys <:+ large.keys := by
  have hsuffix := (run_inclusion (Nat.le_succ 1) [.get "x", .get "y", .get "x"]).1
  refine ⟨?_, ?_, ?_, ?_, hsuffix⟩
  all_goals decide +kernel

end TemplateExpr.Cache
