import Mathlib.Data.List.Basic
import Mathlib.Data.List.DropRight

namespace FabricCommon

/-- JavaScript strings that the formatter computes on, as lists of characters. -/
abbrev Text := List Char

/-- The characters that `\s` matches and `String.prototype.trim` strips. -/
def jsSpace (c : Char) : Bool :=
  [9, 10, 11, 12, 13, 32, 160, 5760, 8232, 8233, 8239, 8287, 12288, 65279].contains c.toNat ||
    (8192 ≤ c.toNat && c.toNat ≤ 8202)

def alphanumeric (c : Char) : Bool :=
  ('0' ≤ c && c ≤ '9') || ('A' ≤ c && c ≤ 'Z') || ('a' ≤ c && c ≤ 'z')

/-- `\w` without the unicode flags. -/
def wordChar (c : Char) : Bool := alphanumeric c || c == '_'

/-- The class `[\w,.\s()']` of `GateClausePattern`. -/
def gateChar (c : Char) : Bool :=
  wordChar c || c == ',' || c == '.' || jsSpace c || c == '(' || c == ')' || c == '\''

/-- The class `[0-9A-Za-z.-]` of `RoleClausePattern`. -/
def mspidChar (c : Char) : Bool := alphanumeric c || c == '.' || c == '-'

def trim (t : Text) : Text := (t.dropWhile jsSpace).rdropWhile jsSpace

theorem trim_eq_nil_iff {t : Text} : trim t = [] ↔ ∀ c ∈ t, jsSpace c = true := by
  unfold trim
  rw [List.rdropWhile_eq_nil_iff]
  constructor
  · intro h
    rw [← List.dropWhile_eq_nil_iff]
    by_contra hne
    have first := List.head_dropWhile_not jsSpace hne
    have all := h _ (List.head_mem hne)
    simp_all
  · intro h c hc
    exact h c (List.dropWhile_subset _ hc)

theorem dropWhile_trim (t : Text) : (trim t).dropWhile jsSpace = trim t := by
  cases kept : trim t with
  | nil => rfl
  | cons c rest =>
    obtain ⟨cut, split⟩ : trim t <+: t.dropWhile jsSpace := List.rdropWhile_prefix ..
    rw [kept] at split
    have solid : t.dropWhile jsSpace ≠ [] := by simp [← split]
    have first := List.head_dropWhile_not jsSpace solid
    have visible : jsSpace c = false := by simpa [← split] using first
    simp [visible]

theorem trim_trim (t : Text) : trim (trim t) = trim t := by
  have front := dropWhile_trim t
  unfold trim at front ⊢
  rw [front, List.rdropWhile_idempotent]

inductive Gate where
  | AND
  | OR
  deriving DecidableEq, Repr

def Gate.text : Gate → Text
  | .AND => ['A', 'N', 'D']
  | .OR => ['O', 'R']

inductive Role where
  | admin
  | member
  | client
  | peer
  | orderer
  deriving DecidableEq, Repr

def Role.text : Role → Text
  | .admin => ['a', 'd', 'm', 'i', 'n']
  | .member => ['m', 'e', 'm', 'b', 'e', 'r']
  | .client => ['c', 'l', 'i', 'e', 'n', 't']
  | .peer => ['p', 'e', 'e', 'r']
  | .orderer => ['o', 'r', 'd', 'e', 'r', 'e', 'r']

def Role.all : List Role := [.admin, .member, .client, .peer, .orderer]

def gateClause (gate : Gate) (body : Text) : Text := gate.text ++ '(' :: (body ++ [')'])

def roleClause (mspid : Text) (role : Role) : Text :=
  '\'' :: (mspid ++ '.' :: (role.text ++ ['\'']))

/-- One alternative of `/^(AND|OR)\(([\w,.\s()']+)\)$/`. The second group ends at the last
character, so the greedy match has nothing to choose. -/
def matchGate (gate : Gate) (clause : Text) : Option (Gate × Text) := do
  let opened ← clause.dropPrefix? (gate.text ++ ['('])
  let body ← opened.dropSuffix? [')']
  if body ≠ [] ∧ body.all gateChar then some (gate, body) else none

/-- `clause.match(GateClausePattern)`, with its first two groups. -/
def matchGateClause (clause : Text) : Option (Gate × Text) :=
  (matchGate .AND clause).or (matchGate .OR clause)

/-- One role of `/^'([0-9A-Za-z.-]+)(\.)(admin|member|client|peer|orderer)'$/`. -/
def matchRole (inner : Text) (role : Role) : Option (Text × Role) := do
  let mspid ← inner.dropSuffix? ('.' :: role.text)
  if mspid ≠ [] ∧ mspid.all mspidChar then some (mspid, role) else none

/-- `clause.match(RoleClausePattern)`, with its first and third groups. -/
def matchRoleClause (clause : Text) : Option (Text × Role) := do
  let opened ← clause.dropPrefix? ['\'']
  let inner ← opened.dropSuffix? ['\'']
  Role.all.findSome? (matchRole inner)

def GateBody (body : Text) : Prop := body ≠ [] ∧ ∀ c ∈ body, gateChar c = true

def MspidText (mspid : Text) : Prop := mspid ≠ [] ∧ ∀ c ∈ mspid, mspidChar c = true

instance (mspid : Text) : Decidable (MspidText mspid) :=
  decidable_of_iff (mspid ≠ [] ∧ mspid.all mspidChar = true) (and_congr_right' List.all_eq_true)

theorem gateClause_inj {g g' : Gate} {b b' : Text} (h : gateClause g b = gateClause g' b') :
    g = g' ∧ b = b' := by
  cases g <;> cases g' <;> simp_all [gateClause, Gate.text]

/-- Two texts cut at the last occurrence of a character agree on both sides. -/
theorem append_cons_cut {c : Char} {xs xs' ys ys' : Text} (hy : c ∉ ys) (hy' : c ∉ ys')
    (h : xs ++ c :: ys = xs' ++ c :: ys') : xs = xs' ∧ ys = ys' := by
  rcases List.append_eq_append_iff.mp h with ⟨zs, hx, hz⟩ | ⟨zs, hx, hz⟩
  · cases zs with
    | nil => exact ⟨by simpa using hx.symm, by simpa using hz⟩
    | cons z zs =>
      have he : ys = zs ++ c :: ys' := (List.cons.inj hz).2
      exact absurd (by simp [he]) hy
  · cases zs with
    | nil => exact ⟨by simpa using hx, by simpa using hz.symm⟩
    | cons z zs =>
      have he : ys' = zs ++ c :: ys := (List.cons.inj hz).2
      exact absurd (by simp [he]) hy'

theorem Role.dot_notMem (r : Role) : '.' ∉ r.text := by
  cases r <;> decide

theorem Role.text_inj {r r' : Role} (h : r.text = r'.text) : r = r' := by
  cases r <;> cases r' <;> simp_all [Role.text]

theorem matchGate_eq_some {gate g : Gate} {clause b : Text} :
    matchGate gate clause = some (g, b) ↔ g = gate ∧ clause = gateClause gate b ∧ GateBody b := by
  unfold matchGate gateClause GateBody
  simp only [Option.bind_eq_bind, Option.bind_eq_some_iff, List.dropPrefix?_eq_some_iff,
    List.dropSuffix?_eq_some_iff, beq_iff_eq, List.all_eq_true]
  constructor
  · intro h
    obtain ⟨opened, ⟨_, rfl, rfl⟩, body, ⟨_, rfl, rfl⟩, h⟩ := h
    split at h
    next hb =>
      obtain ⟨rfl, rfl⟩ := Prod.mk.inj (Option.some.inj h)
      exact ⟨rfl, by simp, hb⟩
    next => simp at h
  · intro h
    obtain ⟨rfl, rfl, hb⟩ := h
    exact ⟨b ++ [')'], ⟨_, by simp, rfl⟩, b, ⟨_, rfl, rfl⟩, by simp [hb.1]; exact hb.2⟩

theorem matchGateClause_eq_some {clause b : Text} {g : Gate} :
    matchGateClause clause = some (g, b) ↔ clause = gateClause g b ∧ GateBody b := by
  unfold matchGateClause
  rw [Option.or_eq_some_iff]
  constructor
  · intro h
    rcases h with h | ⟨_, h⟩
    · obtain ⟨rfl, matched⟩ := matchGate_eq_some.mp h
      exact matched
    · obtain ⟨rfl, matched⟩ := matchGate_eq_some.mp h
      exact matched
  · intro h
    cases g with
    | AND => exact Or.inl (matchGate_eq_some.mpr ⟨rfl, h⟩)
    | OR =>
      refine Or.inr ⟨?_, matchGate_eq_some.mpr ⟨rfl, h⟩⟩
      rw [Option.eq_none_iff_forall_ne_some]
      rintro ⟨g', b'⟩ h'
      obtain ⟨rfl, h', _⟩ := matchGate_eq_some.mp h'
      exact absurd (gateClause_inj (h'.symm.trans h.1)).1 (by decide)

theorem matchRole_eq_some {inner m : Text} {role r : Role} :
    matchRole inner role = some (m, r) ↔
      r = role ∧ inner = m ++ '.' :: role.text ∧ MspidText m := by
  unfold matchRole MspidText
  simp only [Option.bind_eq_bind, Option.bind_eq_some_iff, List.dropSuffix?_eq_some_iff,
    beq_iff_eq, List.all_eq_true]
  constructor
  · intro h
    obtain ⟨mspid, ⟨_, rfl, rfl⟩, h⟩ := h
    split at h
    next hm =>
      obtain ⟨rfl, rfl⟩ := Prod.mk.inj (Option.some.inj h)
      exact ⟨rfl, rfl, hm⟩
    next => simp at h
  · intro h
    obtain ⟨rfl, rfl, hm⟩ := h
    exact ⟨m, ⟨_, rfl, rfl⟩, if_pos hm⟩

theorem matchRoleClause_eq_some {clause m : Text} {r : Role} :
    matchRoleClause clause = some (m, r) ↔ clause = roleClause m r ∧ MspidText m := by
  unfold matchRoleClause
  simp only [Option.bind_eq_bind, Option.bind_eq_some_iff, List.dropPrefix?_eq_some_iff,
    List.dropSuffix?_eq_some_iff, beq_iff_eq]
  constructor
  · intro h
    obtain ⟨opened, ⟨_, rfl, rfl⟩, inner, ⟨_, rfl, rfl⟩, h⟩ := h
    obtain ⟨role, _, h⟩ := List.exists_of_findSome?_eq_some h
    obtain ⟨rfl, rfl, hm⟩ := matchRole_eq_some.mp h
    exact ⟨by simp [roleClause], hm⟩
  · intro h
    obtain ⟨rfl, hm⟩ := h
    refine ⟨m ++ '.' :: (r.text ++ ['\'']), ⟨_, rfl, rfl⟩, m ++ '.' :: r.text,
      ⟨_, by simp, rfl⟩, ?_⟩
    have found : matchRole (m ++ '.' :: r.text) r = some (m, r) :=
      matchRole_eq_some.mpr ⟨rfl, rfl, hm⟩
    have some_found : (Role.all.findSome? (matchRole (m ++ '.' :: r.text))).isSome := by
      rw [List.findSome?_isSome_iff]
      exact ⟨r, by cases r <;> decide, by simp [found]⟩
    obtain ⟨⟨m', r'⟩, h⟩ := Option.isSome_iff_exists.mp some_found
    obtain ⟨role, _, h'⟩ := List.exists_of_findSome?_eq_some h
    obtain ⟨rfl, eq, _⟩ := matchRole_eq_some.mp h'
    obtain ⟨rfl, hr⟩ := append_cons_cut r.dot_notMem r'.dot_notMem eq
    rw [h, Role.text_inj hr]

end FabricCommon
