import Mathlib.Logic.Function.Basic
import Mathlib.Data.List.Basic

/-!
# Owned things

Objects own things, and a thing has at most one owner.  Things are numbered in
the order in which they come into being, and one log keeps what happens to all
of them.  The life of a thing is its part of the log.  Which lives a thing may
have while it is owned, and which ones once it has no owner any more, is given;
the rules say what keeps the lives of all things as they should be.
-/

namespace Foundation
namespace Ownership

variable {κ τ ε : Type}

/-- The life of a thing: its part of the log. -/
def lifeOf (thing : Nat) (log : List (Nat × ε)) : List ε :=
  (log.filter fun entry => entry.1 = thing).map Prod.snd

/-- Something happens to a thing. -/
def about (thing : Nat) (effects : List ε) : List (Nat × ε) :=
  effects.map (Prod.mk thing)

@[simp] theorem lifeOf_nil (thing : Nat) :
    lifeOf thing ([] : List (Nat × ε)) = [] := rfl

@[simp] theorem lifeOf_append
    (thing : Nat)
    (first second : List (Nat × ε)) :
    lifeOf thing (first ++ second) =
      lifeOf thing first ++ lifeOf thing second := by
  unfold lifeOf
  rw [List.filter_append, List.map_append]

@[simp] theorem lifeOf_about_self
    (thing : Nat)
    (effects : List ε) :
    lifeOf thing (about thing effects) = effects := by
  simp [lifeOf, about, List.filter_map, Function.comp_def]

theorem lifeOf_about_of_ne
    {thing other : Nat}
    (different : other ≠ thing)
    (effects : List ε) :
    lifeOf other (about thing effects) = [] := by
  simp [lifeOf, about, List.filter_map, Function.comp_def, different.symm]

/-- What happens to one thing is not part of the life of another. -/
theorem lifeOf_append_about_of_ne
    {thing other : Nat}
    (different : other ≠ thing)
    (log : List (Nat × ε))
    (effects : List ε) :
    lifeOf other (log ++ about thing effects) = lifeOf other log := by
  rw [lifeOf_append, lifeOf_about_of_ne different, List.append_nil]

/-- Things have one owner at most; owned things live as owned things may, the
others have ended as they may, and nothing has happened to those to come. -/
structure Sound
    (alive : τ → List ε → Prop)
    (ended : List ε → Prop)
    (owns : κ → Option (Nat × τ))
    (next : Nat)
    (log : List (Nat × ε)) : Prop where
  unique : ∀ {first second thing contents others},
    owns first = some (thing, contents) →
      owns second = some (thing, others) → first = second
  alive : ∀ {owner thing contents}, owns owner = some (thing, contents) →
    thing < next ∧ alive contents (lifeOf thing log)
  ended : ∀ {thing}, thing < next →
    (∀ owner contents, owns owner ≠ some (thing, contents)) →
      ended (lifeOf thing log)
  fresh : ∀ {thing}, next ≤ thing → lifeOf thing log = []

section Rules

variable {alive : τ → List ε → Prop} {ended : List ε → Prop}
variable {owns : κ → Option (Nat × τ)} {next : Nat} {log : List (Nat × ε)}

theorem sound_empty :
    Sound alive ended (fun _ : κ => none) 0 ([] : List (Nat × ε)) where
  unique := fun owned _ => nomatch owned
  alive := fun owned => nomatch owned
  ended := fun below _ => absurd below (Nat.not_lt_zero _)
  fresh := fun _ => rfl

/-- A new thing comes into being and ends at once. -/
theorem Sound.discard
    (sound : Sound alive ended owns next log)
    {effects : List ε}
    (ending : ended effects) :
    Sound alive ended owns (next + 1) (log ++ about next effects) where
  unique := sound.unique
  alive := by
    intro owner thing contents owned
    obtain ⟨below, lives⟩ := sound.alive owned
    refine ⟨Nat.lt_succ_of_lt below, ?_⟩
    rw [lifeOf_append_about_of_ne (Nat.ne_of_lt below)]
    exact lives
  ended := by
    intro thing below unowned
    rcases Nat.lt_succ_iff_lt_or_eq.mp below with older | rfl
    · rw [lifeOf_append_about_of_ne (Nat.ne_of_lt older)]
      exact sound.ended older unowned
    · rw [lifeOf_append, sound.fresh (Nat.le_refl thing), lifeOf_about_self]
      exact ending
  fresh := by
    intro thing above
    rw [lifeOf_append_about_of_ne (by omega), sound.fresh (by omega)]

/-- Something happens to an owned thing, and it lives on. -/
theorem Sound.use
    (sound : Sound alive ended owns next log)
    {owner : κ}
    {thing : Nat}
    {contents : τ}
    (owned : owns owner = some (thing, contents))
    {effects : List ε}
    (continues : alive contents (lifeOf thing log ++ effects)) :
    Sound alive ended owns next (log ++ about thing effects) where
  unique := sound.unique
  alive := by
    intro other otherThing held otherOwned
    obtain ⟨below, lives⟩ := sound.alive otherOwned
    refine ⟨below, ?_⟩
    by_cases same : otherThing = thing
    · subst otherThing
      obtain rfl := sound.unique owned otherOwned
      rw [owned] at otherOwned
      cases otherOwned
      rw [lifeOf_append, lifeOf_about_self]
      exact continues
    · rw [lifeOf_append_about_of_ne same]
      exact lives
  ended := by
    intro other below unowned
    have different : other ≠ thing := by
      rintro rfl
      exact unowned owner contents owned
    rw [lifeOf_append_about_of_ne different]
    exact sound.ended below unowned
  fresh := by
    intro other above
    have below := (sound.alive owned).1
    rw [lifeOf_append_about_of_ne (by omega), sound.fresh above]

variable [DecidableEq κ]

/-- An object that owns nothing comes to own a new thing. -/
theorem Sound.create
    (sound : Sound alive ended owns next log)
    {owner : κ}
    (free : owns owner = none)
    {contents : τ}
    {effects : List ε}
    (begun : alive contents effects) :
    Sound alive ended (Function.update owns owner (some (next, contents)))
      (next + 1) (log ++ about next effects) where
  unique := by
    intro first second thing firstContents secondContents ownsFirst ownsSecond
    have old {other : κ} {held : τ} (owned : owns other = some (thing, held)) :
        thing ≠ next := Nat.ne_of_lt (sound.alive owned).1
    rw [Function.update_apply] at ownsFirst ownsSecond
    split at ownsFirst <;> split at ownsSecond
    next firstOwner secondOwner => rw [firstOwner, secondOwner]
    next =>
      cases ownsFirst
      exact absurd rfl (old ownsSecond)
    next =>
      cases ownsSecond
      exact absurd rfl (old ownsFirst)
    next => exact sound.unique ownsFirst ownsSecond
  alive := by
    intro other thing held owned
    rw [Function.update_apply] at owned
    split at owned
    next =>
      cases owned
      refine ⟨Nat.lt_succ_self next, ?_⟩
      rw [lifeOf_append, sound.fresh (Nat.le_refl next), lifeOf_about_self]
      exact begun
    next =>
      obtain ⟨below, lives⟩ := sound.alive owned
      refine ⟨Nat.lt_succ_of_lt below, ?_⟩
      rw [lifeOf_append_about_of_ne (Nat.ne_of_lt below)]
      exact lives
  ended := by
    intro thing below unowned
    have notNext : thing ≠ next := by
      rintro rfl
      exact unowned owner contents (Function.update_self ..)
    have below : thing < next := by omega
    rw [lifeOf_append_about_of_ne notNext]
    refine sound.ended below fun other held owned => ?_
    by_cases same : other = owner
    · rw [same, free] at owned
      cases owned
    · exact unowned other held (by rw [Function.update_of_ne same, owned])
  fresh := by
    intro thing above
    rw [lifeOf_append_about_of_ne (by omega), sound.fresh (by omega)]

/-- What one object owns passes to another one that owns nothing. -/
theorem Sound.transfer
    (sound : Sound alive ended owns next log)
    (source : κ)
    {target : κ}
    (free : owns target = none) :
    Sound alive ended
      (Function.update (Function.update owns source none) target (owns source))
      next log := by
  -- Who owns a thing afterwards owned it before, or took it from the source.
  have before : ∀ {owner thing contents},
      Function.update (Function.update owns source none) target (owns source)
          owner = some (thing, contents) →
        (owner = target ∧ owns source = some (thing, contents)) ∨
          (owner ≠ target ∧ owner ≠ source ∧
            owns owner = some (thing, contents)) := by
    intro owner thing contents owned
    rw [Function.update_apply, Function.update_apply] at owned
    split at owned
    next isTarget => exact .inl ⟨isTarget, owned⟩
    next notTarget =>
      split at owned
      next => cases owned
      next notSource => exact .inr ⟨notTarget, notSource, owned⟩
  refine ⟨?_, ?_, ?_, sound.fresh⟩
  · intro first second thing firstContents secondContents ownsFirst ownsSecond
    rcases before ownsFirst with ⟨firstTarget, fromSource⟩ |
        ⟨-, firstOther, firstOwned⟩ <;>
      rcases before ownsSecond with ⟨secondTarget, alsoSource⟩ |
        ⟨-, secondOther, secondOwned⟩
    · rw [firstTarget, secondTarget]
    · exact absurd (sound.unique secondOwned fromSource) secondOther
    · exact absurd (sound.unique firstOwned alsoSource) firstOther
    · exact sound.unique firstOwned secondOwned
  · intro owner thing contents owned
    rcases before owned with ⟨-, fromSource⟩ | ⟨-, -, kept⟩
    · exact sound.alive fromSource
    · exact sound.alive kept
  · intro thing below unowned
    refine sound.ended below fun owner contents owned => ?_
    by_cases isSource : owner = source
    · subst owner
      exact unowned target contents (by rw [Function.update_self, owned])
    · have notTarget : owner ≠ target := by
        rintro rfl
        rw [free] at owned
        cases owned
      refine unowned owner contents ?_
      rw [Function.update_of_ne notTarget, Function.update_of_ne isSource, owned]

/-- An object gives up what it owns, and with that the thing ends. -/
theorem Sound.release
    (sound : Sound alive ended owns next log)
    {owner : κ}
    {thing : Nat}
    {contents : τ}
    (owned : owns owner = some (thing, contents))
    {effects : List ε}
    (ending : ended (lifeOf thing log ++ effects)) :
    Sound alive ended (Function.update owns owner none) next
      (log ++ about thing effects) := by
  have before : ∀ {other otherThing held},
      Function.update owns owner none other = some (otherThing, held) →
        other ≠ owner ∧ owns other = some (otherThing, held) := by
    intro other otherThing held otherOwned
    rw [Function.update_apply] at otherOwned
    split at otherOwned
    next => cases otherOwned
    next different => exact ⟨different, otherOwned⟩
  refine ⟨?_, ?_, ?_, ?_⟩
  · intro first second shared firstContents secondContents ownsFirst ownsSecond
    exact sound.unique (before ownsFirst).2 (before ownsSecond).2
  · intro other otherThing held otherOwned
    obtain ⟨different, kept⟩ := before otherOwned
    have otherThing_ne : otherThing ≠ thing := by
      rintro rfl
      exact different (sound.unique kept owned)
    rw [lifeOf_append_about_of_ne otherThing_ne]
    exact sound.alive kept
  · intro other below unowned
    by_cases same : other = thing
    · subst other
      rw [lifeOf_append, lifeOf_about_self]
      exact ending
    · rw [lifeOf_append_about_of_ne same]
      refine sound.ended below fun holder held holds => ?_
      have different : holder ≠ owner := by
        rintro rfl
        rw [owned] at holds
        cases holds
        exact same rfl
      exact unowned holder held (by rw [Function.update_of_ne different, holds])
  · intro other above
    have below := (sound.alive owned).1
    rw [lifeOf_append_about_of_ne (by omega), sound.fresh above]

end Rules

end Ownership
end Foundation
