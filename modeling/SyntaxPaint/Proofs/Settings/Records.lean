import Mathlib.Data.List.Nodup
import SyntaxPaint.Proofs.Settings.Acceptance
/-!
# Members of records

The members of a record may stand in any order, since each field is put into a part of the record
of its own. So what one member does is seen where it stands first.
-/
namespace SyntaxPaint

variable {ρ α β : Type}

namespace Field

/-- What the two fields put into a record does not depend on which comes first. -/
def Commutes (f g : Field ρ) : Prop :=
  ∀ ⦃t u : Tree⦄ ⦃p q : ρ → ρ⦄, f.set t = .ok p → g.set u = .ok q → ∀ r, p (q r) = q (p r)

theorem commutes_of {name other : String} {read : Tree → Reading α} {read' : Tree → Reading β}
    {put : α → ρ → ρ} {put' : β → ρ → ρ} (h : ∀ v w r, put v (put' w r) = put' w (put v r)) :
    Commutes (.of name read put) (.of other read' put') := by
  intro t u p q hp hq r
  obtain ⟨v, -, rfl⟩ := map_eq_ok_iff.mp hp
  obtain ⟨w, -, rfl⟩ := map_eq_ok_iff.mp hq
  exact h v w r

/-- Fields of different names, each with a part of the record of its own. -/
structure Independent (fields : List (Field ρ)) : Prop where
  names : (fields.map Field.name).Nodup
  commute : fields.Pairwise Commutes

theorem Independent.commutes {fields : List (Field ρ)} (independent : Independent fields)
    {f g : Field ρ} (hf : f ∈ fields) (hg : g ∈ fields) (ne : f.name ≠ g.name) : Commutes f g := by
  have hsymm : Std.Symm (@Commutes ρ) := ⟨fun f g h t u p q hp hq r => (h hq hp r).symm⟩
  exact independent.commute.forall hf hg fun h => ne (congrArg name h)

theorem Independent.eq_of_name {fields : List (Field ρ)} (independent : Independent fields)
    {f g : Field ρ} (hf : f ∈ fields) (hg : g ∈ fields) (h : f.name = g.name) : f = g :=
  List.inj_on_of_nodup_map independent.names hf hg h

/-- A change of the record leaves alone what the field puts into it, unless the field is one of
these. -/
def Spares (field : Field ρ) (names : List String) (change : ρ → ρ) : Prop :=
  field.name ∉ names → ∀ ⦃t : Tree⦄ ⦃p : ρ → ρ⦄, field.set t = .ok p →
    ∀ r, p (change r) = change (p r)

theorem spares_of {name : String} {names : List String} {read : Tree → Reading α}
    {put : α → ρ → ρ} {change : ρ → ρ} (h : ∀ v r, put v (change r) = change (put v r)) :
    (Field.of name read put).Spares names change := by
  intro _ t p hp r
  obtain ⟨v, -, rfl⟩ := map_eq_ok_iff.mp hp
  exact h v r

theorem spares_of_mem {field : Field ρ} {names : List String} {change : ρ → ρ}
    (h : field.name ∈ names) : field.Spares names change := fun hname => absurd h hname

/-- What a member of a record does: an unknown one is passed over, a known one puts what its field
reads. -/
inductive Reads (fields : List (Field ρ)) : Quoted × Tree → Option String → (ρ → ρ) → Prop
  | unknown {key : Quoted} {value : Tree} {name : String} (said : key.said = .ok name)
      (other : ∀ field ∈ fields, field.name ≠ name) (sound : value.skipped = none) :
      Reads fields (key, value) none id
  | known {key : Quoted} {value : Tree} {field : Field ρ} {put : ρ → ρ}
      (said : key.said = .ok field.name)
      (found : fields.find? (fun other => other.name == field.name) = some field)
      (read : field.set value = .ok put) : Reads fields (key, value) (some field.name) put

theorem Reads.commute {fields : List (Field ρ)} {member member' : Quoted × Tree}
    {known known' : Option String} {p q : ρ → ρ} (h : Reads fields member known p)
    (independent : Independent fields) (h' : Reads fields member' known' q)
    (apart : ∀ name ∈ known, name ∉ known') (r : ρ) : p (q r) = q (p r) := by
  cases h with
  | unknown => rfl
  | known said found read =>
    cases h' with
    | unknown => rfl
    | known said' found' read' =>
      have hne := apart _ rfl
      exact independent.commutes (List.mem_of_find?_eq_some found)
        (List.mem_of_find?_eq_some found') (by simpa using Ne.symm hne) read read' r

end Field

section Members

variable {fields : List (Field ρ)} {member : Quoted × Tree}
  {members members' front back : List (Quoted × Tree)} {seen seen' : List String}
  {record result standard : ρ}

theorem readMembers_cons_iff :
    readMembers fields (.ofList (member :: members)) seen record = .ok result ↔
      ∃ known put, Field.Reads fields member known put ∧ (∀ name ∈ known, name ∉ seen) ∧
        readMembers fields (.ofList members) (known.toList ++ seen) (put record) = .ok result := by
  obtain ⟨key, value⟩ := member
  rw [Members.ofList, readMembers, bind_eq_ok_iff]
  constructor
  · rintro ⟨name, hname, h⟩
    split at h
    · next hfind =>
      split at h
      · cases h
      · next hskipped =>
        have hother : ∀ field ∈ fields, field.name ≠ name := by simpa using hfind
        exact ⟨none, id, .unknown hname hother hskipped, by simp, h⟩
    · next field hfind =>
      obtain rfl : field.name = name := by simpa using List.find?_some hfind
      split_ifs at h with hseen
      obtain ⟨put, hput, h⟩ := bind_eq_ok_iff.mp h
      exact ⟨_, put, .known hname hfind hput, by simpa using hseen, h⟩
  · rintro ⟨known, put, reads, hseen, h⟩
    cases reads with
    | unknown said other sound =>
      refine ⟨_, said, ?_⟩
      have hfind : fields.find? (fun field => field.name == _) = none :=
        List.find?_eq_none.mpr (by simpa using other)
      rw [hfind, sound]
      exact h
    | known said found read =>
      refine ⟨_, said, ?_⟩
      rw [found]
      have hseen := hseen _ rfl
      simp only [hseen, if_false]
      exact bind_eq_ok_iff.mpr ⟨put, read, h⟩

/-- A change of the record that leaves alone the fields still to come may be made before they are
read, and fewer fields may have been seen. -/
theorem readMembers_of_change {change : ρ → ρ}
    (h : readMembers fields (.ofList members) seen record = .ok result)
    (spares : ∀ field ∈ fields, field.Spares seen change) (sub : seen' ⊆ seen) :
    readMembers fields (.ofList members) seen' (change record) = .ok (change result) := by
  induction members generalizing seen seen' record with
  | nil =>
    obtain rfl := Except.ok.inj h
    rfl
  | cons member members ih =>
    obtain ⟨known, put, reads, hseen, hrest⟩ := readMembers_cons_iff.mp h
    refine readMembers_cons_iff.mpr
      ⟨known, put, reads, fun name hname h => hseen name hname (sub h), ?_⟩
    have hput : put (change record) = change (put record) := by
      cases reads with
      | unknown => rfl
      | known said found read =>
        exact spares _ (List.mem_of_find?_eq_some found) (hseen _ rfl) read record
    rw [hput]
    have hsub : known.toList ++ seen' ⊆ known.toList ++ seen := by grind
    exact ih hrest (fun field hfield hname => spares field hfield (by grind)) hsub

/-- The members of a record may stand in any order. -/
theorem readMembers_of_perm (independent : Field.Independent fields) (h : members.Perm members')
    (hread : readMembers fields (.ofList members) seen record = .ok result) :
    readMembers fields (.ofList members') seen record = .ok result := by
  induction h generalizing seen record with
  | nil => exact hread
  | cons member perm ih =>
    obtain ⟨known, put, reads, hseen, hrest⟩ := readMembers_cons_iff.mp hread
    exact readMembers_cons_iff.mpr ⟨known, put, reads, hseen, ih hrest⟩
  | trans perm perm' ih ih' => exact ih' (ih hread)
  | swap first second members =>
    obtain ⟨known, put, reads, hseen, hread⟩ := readMembers_cons_iff.mp hread
    obtain ⟨known', put', reads', hseen', hrest⟩ := readMembers_cons_iff.mp hread
    simp only [List.mem_append, Option.mem_toList, not_or] at hseen'
    have hput : put' (put record) = put (put' record) :=
      reads'.commute independent reads (fun name hname => (hseen' name hname).1) record
    refine readMembers_cons_iff.mpr ⟨known', put', reads', fun name hname => (hseen' name hname).2,
      readMembers_cons_iff.mpr ⟨known, put, reads, fun name hname => ?_, ?_⟩⟩
    · simp only [List.mem_append, Option.mem_toList, not_or]
      exact ⟨fun hname' => (hseen' name hname').1 hname, hseen name hname⟩
    · have hsame : ∀ field ∈ fields,
          field.Spares (known'.toList ++ (known.toList ++ seen)) id := fun _ _ _ _ _ _ _ => rfl
      rw [← hput]
      exact readMembers_of_change hrest hsame (by grind)

theorem readMembers_middle_iff (independent : Field.Independent fields) :
    readMembers fields (.ofList (front ++ member :: back)) [] record = .ok result ↔
      ∃ known put, Field.Reads fields member known put ∧
        readMembers fields (.ofList (front ++ back)) known.toList (put record) = .ok result := by
  have hperm : (front ++ member :: back).Perm (member :: (front ++ back)) := List.perm_middle
  constructor
  · intro h
    obtain ⟨known, put, reads, -, hrest⟩ :=
      readMembers_cons_iff.mp (readMembers_of_perm independent hperm h)
    exact ⟨known, put, reads, by simpa using hrest⟩
  · rintro ⟨known, put, reads, h⟩
    refine readMembers_of_perm independent hperm.symm (readMembers_cons_iff.mpr ?_)
    exact ⟨known, put, reads, by simp, by simpa using h⟩

end Members
end SyntaxPaint
