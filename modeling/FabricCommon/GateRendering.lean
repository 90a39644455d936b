import FabricCommon.GateShape

namespace FabricCommon

open GateExpr

def NoSpace (t : Text) : Prop := ∀ c ∈ t, jsSpace c = false

instance (t : Text) : Decidable (NoSpace t) :=
  decidable_of_iff (t.all (fun c => !jsSpace c) = true) (by simp [NoSpace])

theorem Renders.filled {p : Phrase} {t : Text} (h : Renders p t) :
    match p with
    | .clause e => e.Filled
    | .items es => es ≠ [] ∧ ∀ e ∈ es, e.Filled := by
  induction h with
  | role r _ => exact .role _ r
  | gate g _ ih => exact .gate g ih.1 ih.2
  | single _ _ _ ih => exact ⟨by simp, by simpa using ih⟩
  | cons _ _ _ _ ih ihs => exact ⟨by simp, List.forall_mem_cons.mpr ⟨ih, ihs.2⟩⟩

theorem whitespace_comma_notMem {t : Text} (h : Whitespace t) : ',' ∉ t := fun hc =>
  absurd (h ',' hc) (by decide)

theorem mspid_notMem {m : Text} (h : MspidText m) {c : Char} (hc : mspidChar c = false) :
    c ∉ m := fun hm => by simp [h.2 c hm] at hc

theorem splitOn_padded_cons {left text right rest : Text} (hl : Whitespace left)
    (ht : ',' ∉ text) (hr : Whitespace right) :
    (left ++ text ++ right ++ ',' :: rest).splitOn ',' =
      (left ++ text ++ right) :: rest.splitOn ',' := by
  apply List.splitOn_append_cons_self_of_not_mem
  simp [whitespace_comma_notMem hl, whitespace_comma_notMem hr, ht]

theorem splitOn_padded_single {left text right : Text} (hl : Whitespace left)
    (ht : ',' ∉ text) (hr : Whitespace right) :
    (left ++ text ++ right).splitOn ',' = [left ++ text ++ right] := by
  apply List.splitOn_eq_singleton
  simp [whitespace_comma_notMem hl, whitespace_comma_notMem hr, ht]

/-- With one item in each nested gate the only commas are those between the outer items. -/
theorem Renders.pieces {p : Phrase} {t : Text} (h : Renders p t) :
    match p with
    | .clause e => e.SingleFile → ',' ∉ t
    | .items es => (∀ e ∈ es, e.SingleFile) → (t.splitOn ',').length = es.length := by
  induction h with
  | role r hm =>
    intro _
    have hm' := mspid_notMem hm (c := ',') (by decide)
    cases r <;> simp [roleClause, Role.text, hm']
  | @gate es body g hs ih =>
    intro single
    cases single with
    | gate _ se =>
      have one := ih (by simpa using se)
      have comma : ',' ∉ body := by
        intro hc
        obtain ⟨xs, ys, eq⟩ := List.append_of_mem hc
        have two : ((xs ++ ',' :: ys).splitOn ',').length =
            (xs.splitOn ',').length + (ys.splitOn ',').length := by
          rw [List.splitOn_append_cons_self, List.length_append]
        have left := List.length_pos_iff.mpr (List.splitOn_ne_nil ',' xs)
        have right := List.length_pos_iff.mpr (List.splitOn_ne_nil ',' ys)
        rw [eq, two] at one
        simp only [List.length_cons, List.length_nil] at one
        omega
      cases g <;> simp [gateClause, Gate.text, comma]
  | single hl _ hr ih =>
    intro all
    rw [splitOn_padded_single hl (ih (all _ (by simp))) hr]
    rfl
  | cons hl _ hr _ ih ihs =>
    intro all
    obtain ⟨first, rest⟩ := List.forall_mem_cons.mp all
    rw [splitOn_padded_cons hl (ih first) hr, List.length_cons, ihs rest, List.length_cons]

/-- A recognised item starts and ends with a character of its own. -/
theorem readClause_bare {left text right : Text} {e : GateExpr} (hl : Whitespace left)
    (hr : Whitespace right) (h : readClause (left ++ text ++ right) = some e) :
    left = [] ∧ right = [] := by
  have ends : ∃ first mid last, left ++ text ++ right = first :: (mid ++ [last]) ∧
      jsSpace first = false ∧ jsSpace last = false := by
    rcases readClause_eq_some.mp h with ⟨g, b, eq, _, _⟩ | ⟨m, r, eq, _, _⟩
    · rw [eq]
      cases g with
      | AND =>
        exact ⟨'A', ['N', 'D'] ++ '(' :: b, ')', by simp [gateClause, Gate.text], by decide,
          by decide⟩
      | OR =>
        exact ⟨'O', ['R'] ++ '(' :: b, ')', by simp [gateClause, Gate.text], by decide,
          by decide⟩
    · rw [eq]
      exact ⟨'\'', m ++ '.' :: r.text, '\'', by simp [roleClause], by decide, by decide⟩
  obtain ⟨first, mid, last, eq, hf, hlast⟩ := ends
  constructor
  · cases left with
    | nil => rfl
    | cons c cs =>
      have hc : c = first := by simpa using (List.cons.inj eq).1
      have space := hl c (by simp)
      rw [hc, hf] at space
      cases space
  · induction right using List.reverseRecOn with
    | nil => rfl
    | append_singleton cs c _ =>
      have eq' : (left ++ text ++ cs) ++ [c] = (first :: mid) ++ [last] := by
        simpa [List.append_assoc] using eq
      have hc : c = last := by simpa using (List.append_inj' eq' rfl).2
      have space := hr c (by simp)
      rw [hc, hlast] at space
      cases space

theorem gateChar_of_mspidChar {c : Char} (h : mspidChar c = true) (hd : c ≠ '-') :
    gateChar c = true := by
  simp only [mspidChar, Bool.or_eq_true, beq_iff_eq, hd, or_false] at h
  rcases h with h | h <;> simp [gateChar, wordChar, h]

theorem jsSpace_of_mspidChar {c : Char} (h : mspidChar c = true) : jsSpace c = false := by
  have range : 33 ≤ c.toNat ∧ c.toNat ≤ 126 := by
    simp only [mspidChar, alphanumeric, Bool.or_eq_true, Bool.and_eq_true, decide_eq_true_eq,
      beq_iff_eq, Char.le_def, UInt32.le_iff_toNat_le] at h
    rcases h with (((h | h) | h) | rfl) | rfl
    · exact ⟨le_trans (by decide) h.1, le_trans h.2 (by decide)⟩
    · exact ⟨le_trans (by decide) h.1, le_trans h.2 (by decide)⟩
    · exact ⟨le_trans (by decide) h.1, le_trans h.2 (by decide)⟩
    · decide
    · decide
  simp only [jsSpace, List.contains_eq_mem, List.mem_cons, List.not_mem_nil, or_false,
    Bool.or_eq_false_iff, decide_eq_false_iff_not, Bool.and_eq_false_iff]
  omega

theorem Role.gateChar_text (r : Role) : ∀ c ∈ r.text, gateChar c = true :=
  List.all_eq_true.mp (by cases r <;> decide)

theorem Gate.gateChar_text (g : Gate) : ∀ c ∈ g.text, gateChar c = true :=
  List.all_eq_true.mp (by cases g <;> decide)

theorem Role.noSpace_text (r : Role) : NoSpace r.text := by
  cases r <;> decide

/-- Without a dash a rendering stays inside the alphabet of `GateClausePattern`. -/
theorem Renders.gateChars {p : Phrase} {t : Text} (h : Renders p t) (dash : '-' ∉ t) :
    ∀ c ∈ t, gateChar c = true := by
  have space : ∀ {ws : Text}, Whitespace ws → ∀ c ∈ ws, gateChar c = true :=
    fun hw c hc => by simp [gateChar, hw c hc]
  induction h with
  | @role m r hm =>
    intro c hc
    simp only [roleClause, List.mem_cons, List.mem_append, List.not_mem_nil, or_false] at hc dash
    rcases hc with rfl | hc | rfl | hc | rfl
    · decide
    · exact gateChar_of_mspidChar (hm.2 c hc) (fun eq => dash (Or.inr (Or.inl (eq ▸ hc))))
    · decide
    · exact r.gateChar_text c hc
    · decide
  | @gate es body g hs ih =>
    intro c hc
    have inner := ih fun hd => dash (by simp [gateClause, hd])
    simp only [gateClause, List.mem_append, List.mem_cons, List.not_mem_nil, or_false] at hc
    rcases hc with hc | rfl | hc | rfl
    · exact g.gateChar_text c hc
    · decide
    · exact inner c hc
    · decide
  | single hl _ hr ih =>
    intro c hc
    simp only [List.mem_append, not_or] at hc dash
    rcases hc with (hc | hc) | hc
    · exact space hl c hc
    · exact ih dash.1.2 c hc
    · exact space hr c hc
  | cons hl _ hr _ ih ihs =>
    intro c hc
    simp only [List.mem_append, List.mem_cons, not_or] at hc dash
    rcases hc with ((hc | hc) | hc) | rfl | hc
    · exact space hl c hc
    · exact ih dash.1.1.2 c hc
    · exact space hr c hc
    · decide
    · exact ihs dash.2.2 c hc

theorem noSpace_roleClause {m : Text} (hm : MspidText m) (r : Role) : NoSpace (roleClause m r) := by
  intro c hc
  simp only [roleClause, List.mem_cons, List.mem_append, List.not_mem_nil, or_false] at hc
  rcases hc with rfl | hc | rfl | hc | rfl
  · decide
  · exact jsSpace_of_mspidChar (hm.2 c hc)
  · decide
  · exact r.noSpace_text c hc
  · decide

theorem noSpace_append {xs ys : Text} : NoSpace (xs ++ ys) ↔ NoSpace xs ∧ NoSpace ys :=
  List.forall_mem_append

theorem noSpace_gateClause {g : Gate} {b : Text} : NoSpace (gateClause g b) ↔ NoSpace b := by
  have eq : gateClause g b = (g.text ++ ['(']) ++ b ++ [')'] := by simp [gateClause]
  have opening : NoSpace (g.text ++ ['(']) := by cases g <;> decide
  have closing : NoSpace [')'] := by decide
  rw [eq, noSpace_append, noSpace_append]
  exact ⟨fun h => h.1.2, fun h => ⟨⟨opening, h⟩, closing⟩⟩

theorem noSpace_padded {left text right : Text} (hl : Whitespace left) (hr : Whitespace right) :
    NoSpace (left ++ text ++ right) ↔ left = [] ∧ NoSpace text ∧ right = [] := by
  have blank : ∀ {ws : Text}, Whitespace ws → NoSpace ws → ws = [] := by
    intro ws hw hn
    apply List.eq_nil_iff_forall_not_mem.mpr
    intro c hc
    have both := hn c hc
    rw [hw c hc] at both
    cases both
  constructor
  · intro h
    refine ⟨blank hl fun c hc => h c (by simp [hc]), fun c hc => h c (by simp [hc]), ?_⟩
    exact blank hr fun c hc => h c (by simp [hc])
  · intro h
    obtain ⟨rfl, ht, rfl⟩ := h
    simpa using ht

end FabricCommon
