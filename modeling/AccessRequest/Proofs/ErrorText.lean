import AccessRequest.Api.Error
import Std.Data.String.ToNat

/-!
The one-line text of an access-URL error names it exactly: two errors with the same text are the
same error. The kinds' texts start with different letters; a server error's status is the run
of decimal digits before the first closing parenthesis, and its message is all after `): `.
-/

namespace AccessRequest

/-- Decimal digits hold no closing parenthesis. -/
theorem rparen_not_mem_repr (n : Nat) : ')' ∉ (Nat.repr n).toList := by
  intro h
  rw [Nat.repr, String.toList_ofList] at h
  have := Nat.isDigit_of_mem_toDigits (by decide) (by decide) h
  revert this
  decide

/-- Cutting two lists at the first `a`, when neither prefix holds one, gives the same pieces. -/
theorem eq_of_append_cons_eq {α : Type} {a : α} :
    ∀ {l₁ l₂ r₁ r₂ : List α}, a ∉ l₁ → a ∉ l₂ → l₁ ++ a :: r₁ = l₂ ++ a :: r₂ →
      l₁ = l₂ ∧ r₁ = r₂
  | [], [], _, _, _, _, h => by simpa using h
  | [], _ :: _, _, _, _, h₂, h => by
    simp only [List.nil_append, List.cons_append, List.cons.injEq] at h
    exact absurd (h.1 ▸ List.mem_cons_self) h₂
  | _ :: _, [], _, _, h₁, _, h => by
    simp only [List.nil_append, List.cons_append, List.cons.injEq] at h
    exact absurd (h.1 ▸ List.mem_cons_self) h₁
  | _ :: _, _ :: _, _, _, h₁, h₂, h => by
    simp only [List.cons_append, List.cons.injEq] at h
    have rest := eq_of_append_cons_eq (fun m => h₁ (List.mem_cons_of_mem _ m))
      (fun m => h₂ (List.mem_cons_of_mem _ m)) h.2
    exact ⟨by rw [h.1, rest.1], rest.2⟩

namespace ApiError

/-- A server error's text after its opening words gives back its status and message. -/
theorem server_eq_of_text {s₁ s₂ : UInt16} {m₁ m₂ : String}
    (h : Nat.repr s₁.toNat ++ ("): " ++ m₁) = Nat.repr s₂.toNat ++ ("): " ++ m₂)) :
    server s₁ m₁ = server s₂ m₂ := by
  have hl := congrArg String.toList h
  simp only [String.toList_append] at hl
  have hp : "): ".toList = ')' :: ": ".toList := by decide
  rw [hp] at hl
  have ⟨hd, hm⟩ := eq_of_append_cons_eq (rparen_not_mem_repr _) (rparen_not_mem_repr _) hl
  have hs : s₁ = s₂ := UInt16.toNat_inj.mp (Nat.repr_injective (String.toList_inj.mp hd))
  have hm' : m₁ = m₂ := String.toList_inj.mp (List.append_cancel_left hm)
  rw [hs, hm']

/-! Each kind's text as its opening words and the rest, by unfolding `display` itself: its
equation lemmas are slow to generate, as each case holds a string literal. -/

theorem display_network (m : String) : (network m).display = "Network error: " ++ m := rfl

theorem display_server (s : UInt16) (m : String) :
    (server s m).display = "Server error (" ++ (Nat.repr s.toNat ++ ("): " ++ m)) := by
  rw [← String.append_assoc, ← String.append_assoc]
  rfl

theorem display_parse (m : String) : (parse m).display = "Parse error: " ++ m := rfl

theorem display_auth (m : String) : (auth m).display = "Auth error: " ++ m := rfl

/-- An error's text gives it back: the first character tells the kind, and the rest the
message, or for a server error the status and the message. -/
theorem eq_of_display_eq {e₁ e₂ : ApiError} (h : e₁.display = e₂.display) : e₁ = e₂ := by
  have hk := congrArg (fun s => s.toList.head?) h
  cases e₁ <;> cases e₂ <;>
    simp only [display_network, display_server, display_parse, display_auth] at h hk <;>
    simp [String.toList_append] at hk <;>
    simp only [String.append_right_inj] at h
  · rw [h]
  · exact server_eq_of_text h
  · rw [h]
  · rw [h]

/-- Two errors have the same text exactly when they are the same error. -/
theorem display_inj {e₁ e₂ : ApiError} : e₁.display = e₂.display ↔ e₁ = e₂ :=
  ⟨eq_of_display_eq, fun h => h ▸ rfl⟩

end ApiError

end AccessRequest
