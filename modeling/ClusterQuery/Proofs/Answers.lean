import Mathlib.Data.List.Forall2

/-!
# Answers that succeed

A sequence of answers succeeds when each of them does (`bind_eq_ok`), and a list of answers when all do (`mapM_eq_ok`,
`filterMapM_eq_ok`).
-/

namespace ClusterQuery

variable {ε δ α β : Type}

/-- A sequence of two answers succeeds when both do. -/
theorem bind_eq_ok {answer : Except ε α} {next : α → Except ε β} {b : β} :
    (answer >>= next) = .ok b ↔ ∃ a, answer = .ok a ∧ next a = .ok b := by
  cases answer with
  | error cause => exact ⟨nofun, fun ⟨_, h, _⟩ => nomatch h⟩
  | ok a => exact ⟨fun h => ⟨a, rfl, h⟩, fun ⟨_, rfl, h⟩ => h⟩

/-- A changed answer succeeds when the answer does. -/
theorem map_eq_ok {answer : Except ε α} {f : α → β} {b : β} : answer.map f = .ok b ↔ ∃ a, answer = .ok a ∧ f a = b := by
  cases answer with
  | error cause => exact ⟨nofun, fun ⟨_, h, _⟩ => nomatch h⟩
  | ok a => simp [Except.map]

/-- An answer with another error succeeds when the answer does. -/
theorem mapError_eq_ok {answer : Except ε α} {f : ε → δ} {a : α} : answer.mapError f = .ok a ↔ answer = .ok a := by
  cases answer <;> simp [Except.mapError]

/-- A list of answers succeeds when each does. -/
theorem mapM_eq_ok {f : α → Except ε β} {entries : List α} {answers : List β} :
    entries.mapM f = .ok answers ↔ List.Forall₂ (fun entry answer => f entry = .ok answer) entries answers := by
  induction entries generalizing answers with
  | nil =>
    rw [List.mapM_nil, List.forall₂_nil_left_iff]
    exact ⟨fun h => by cases h; rfl, fun h => by rw [h]; rfl⟩
  | cons entry rest ih =>
    rw [List.mapM_cons, bind_eq_ok, List.forall₂_cons_left_iff]
    constructor
    · rintro ⟨first, hfirst, h⟩
      obtain ⟨others, hothers, h⟩ := bind_eq_ok.1 h
      cases h
      exact ⟨first, others, hfirst, ih.1 hothers, rfl⟩
    · rintro ⟨first, others, hfirst, hothers, rfl⟩
      exact ⟨first, hfirst, bind_eq_ok.2 ⟨others, ih.2 hothers, rfl⟩⟩

/-- A list of answers of which none is empty succeeds when each does. -/
theorem filterMapM_eq_ok {f : α → Except ε (Option β)} {entries : List α} {answers : List β}
    (hne : ∀ entry ∈ entries, f entry ≠ .ok none) (h : entries.filterMapM f = .ok answers) :
    List.Forall₂ (fun entry answer => f entry = .ok (some answer)) entries answers := by
  induction entries generalizing answers with
  | nil =>
    rw [List.filterMapM_nil] at h
    cases h
    exact List.Forall₂.nil
  | cons entry rest ih =>
    rw [List.filterMapM_cons] at h
    obtain ⟨first, hfirst, h⟩ := bind_eq_ok.1 h
    cases first with
    | none => exact absurd hfirst (hne entry List.mem_cons_self)
    | some found =>
      obtain ⟨others, hothers, h⟩ := bind_eq_ok.1 h
      cases h
      exact List.Forall₂.cons hfirst (ih (fun other ho => hne other (List.mem_cons_of_mem entry ho)) hothers)

/-- A list of answers that succeeds is made of the answers that are not empty. -/
theorem exists_filterMap_of_filterMapM {f : α → Except ε (Option β)} {entries : List α} {answers : List β}
    (h : entries.filterMapM f = .ok answers) :
    ∃ g : α → Option β, (∀ entry ∈ entries, f entry = .ok (g entry)) ∧ answers = entries.filterMap g := by
  refine ⟨fun entry => (f entry).toOption.join, ?_⟩
  induction entries generalizing answers with
  | nil =>
    rw [List.filterMapM_nil] at h
    cases h
    exact ⟨nofun, rfl⟩
  | cons entry rest ih =>
    rw [List.filterMapM_cons] at h
    obtain ⟨first, hfirst, h⟩ := bind_eq_ok.1 h
    have hg : f entry = .ok (f entry).toOption.join := by rw [hfirst]; cases first <;> rfl
    cases first with
    | none =>
      obtain ⟨hall, rfl⟩ := ih h
      exact ⟨List.forall_mem_cons.2 ⟨hg, hall⟩, by rw [List.filterMap_cons, hfirst]; rfl⟩
    | some found =>
      obtain ⟨others, hothers, h⟩ := bind_eq_ok.1 h
      cases h
      obtain ⟨hall, rfl⟩ := ih hothers
      exact ⟨List.forall_mem_cons.2 ⟨hg, hall⟩, by rw [List.filterMap_cons, hfirst]; rfl⟩

/-- Properties that agree on the pairs of two lists hold of all of the one when of all of the other. -/
theorem forall_mem_iff_of_forall₂ {R : α → β → Prop} {entries : List α} {answers : List β} {p : α → Prop} {q : β → Prop}
    (h : List.Forall₂ R entries answers) (hpq : ∀ entry answer, R entry answer → (p entry ↔ q answer)) :
    (∀ entry ∈ entries, p entry) ↔ ∀ answer ∈ answers, q answer := by
  induction h with
  | nil => simp
  | cons hr _ ih => rw [List.forall_mem_cons, List.forall_mem_cons, hpq _ _ hr, ih]

/-- Of two lists of one length, an entry of the one stands beside one of the other. -/
theorem exists_mem_zip {entries : List α} {answers : List β} (hlength : entries.length = answers.length) {entry : α}
    (h : entry ∈ entries) : ∃ answer, (entry, answer) ∈ entries.zip answers := by
  have hfst := List.map_fst_zip (Nat.le_of_eq hlength)
  obtain ⟨⟨_, answer⟩, hmem, rfl⟩ := List.mem_map.1 (hfst ▸ h)
  exact ⟨answer, hmem⟩

end ClusterQuery
