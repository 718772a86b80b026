import Mathlib.Algebra.Order.Ring.Rat
import Mathlib.Data.List.Chain
import Mathlib.Data.Rat.Floor
import MgRobot.Lib.Runs
import MgRobot.Slam.NavBridge

/-!
# Runs of the navigation bridge

Fixes and requests to switch the publication in any order: which fixes are published,
and how far the published ones are apart.
-/

namespace MgRobot.Slam

set_option autoImplicit false

open MgRobot.Lib.Runs

inductive BridgeEvent (R : Type*) where
  | navpvt (around : Surroundings R) (msg : NavPVT)
  | navsatfix (around : Surroundings R) (msg : NavSatFix R)
  | changePublishState (data : Bool)

/-- A fix that passes the checks on its status and its quality. -/
structure AcceptedFix (R : Type*) where
  around : Surroundings R
  stamp : R
  variance : R
  antenna : R × R

/-- The bridge, with the antenna positions of the messages it has published. -/
structure BridgeRun (R : Type*) where
  node : NavBridge R
  sent : List (R × R)

variable {R : Type*} [Field R] [LinearOrder R] [FloorRing R]

namespace NavBridge

variable (m : Numerics R) (cfg : NavBridgeConfig R) (utm : R → R → R × R)

def handle (s : NavBridge R) : BridgeEvent R → NavBridge R × Option (Odometry R)
  | .navpvt around msg => s.onNavpvt m cfg utm around msg
  | .navsatfix around msg => s.onNavsatfix m cfg utm around msg
  | .changePublishState data => ((s.changePublishState data).1, none)

/-- The fix of an event, if it is accepted. -/
def fix? : BridgeEvent R → Option (AcceptedFix R)
  | .navpvt around msg => (navpvtVariance cfg msg).toOption.map fun variance =>
      ⟨around, around.now - cfg.timeOffsetSec, variance, navpvtAntenna m cfg utm msg⟩
  | .navsatfix around msg => (navsatfixVariance m cfg msg).toOption.map fun variance =>
      ⟨around, msg.stamp - cfg.timeOffsetSec, variance,
        convertToMap m cfg utm msg.latitude msg.longitude⟩
  | .changePublishState _ => none

/-- The heading of the event at the position `p`, and the bridge after it. -/
def headed (s : NavBridge R) (e : BridgeEvent R) (p : R × R) : NavBridge R × Option R :=
  match e with
  | .navpvt _ msg => s.navpvtHeading m cfg msg p
  | _ => s.computeHeading m cfg p

variable {m cfg utm} {s s' : NavBridge R} {e : BridgeEvent R} {f : AcceptedFix R} {p : R × R}

section Effect

variable (m cfg utm s e)

/-- What an event can do. -/
inductive Handled : NavBridge R × Option (Odometry R) → Prop
  | rejected (reason : String) (hf : fix? m cfg utm e = none) : Handled (s.reject reason, none)
  | switched (data : Bool) (he : e = .changePublishState data) :
      Handled ({ s with publishEnabled := data }, none)
  | thinnedOut (f : AcceptedFix R) (hf : fix? m cfg utm e = some f)
      (ht : s.thinned m cfg f.antenna = true) : Handled (s.markAdopted f.around.now, none)
  | unheaded (f : AcceptedFix R) (hf : fix? m cfg utm e = some f)
      (ht : s.thinned m cfg f.antenna = false) (hh : (s.headed m cfg e f.antenna).2 = none) :
      Handled ((s.headed m cfg e f.antenna).1.reject "heading unavailable", none)
  | taken (f : AcceptedFix R) (hf : fix? m cfg utm e = some f)
      (ht : s.thinned m cfg f.antenna = false) (yaw : R)
      (hh : (s.headed m cfg e f.antenna).2 = some yaw) :
      Handled ({ (s.headed m cfg e f.antenna).1.markAdopted f.around.now with
          lastPub := some f.antenna },
        (s.headed m cfg e f.antenna).1.publishOdom m cfg f.around f.stamp f.antenna yaw f.variance)

end Effect

theorem handle_of_fix (hf : fix? m cfg utm e = some f) : s.handle m cfg utm e =
    s.takeFix m cfg f.around f.stamp f.variance f.antenna (s.headed m cfg e f.antenna) := by
  cases e with
  | navpvt around msg =>
      rw [fix?] at hf
      rw [handle, onNavpvt]
      cases hv : navpvtVariance cfg msg with
      | error reason =>
          rw [hv] at hf
          cases hf
      | ok variance =>
          rw [hv] at hf
          cases hf
          rfl
  | navsatfix around msg =>
      rw [fix?] at hf
      rw [handle, onNavsatfix]
      cases hv : navsatfixVariance m cfg msg with
      | error reason =>
          rw [hv] at hf
          cases hf
      | ok variance =>
          rw [hv] at hf
          cases hf
          rfl
  | changePublishState data => cases hf

theorem handled_of_none (hf : fix? m cfg utm e = none) :
    Handled m cfg utm s e (s.handle m cfg utm e) := by
  cases e with
  | navpvt around msg =>
      rw [handle, onNavpvt]
      cases hv : navpvtVariance cfg msg with
      | error reason => exact .rejected reason hf
      | ok variance =>
          rw [fix?, hv] at hf
          cases hf
  | navsatfix around msg =>
      rw [handle, onNavsatfix]
      cases hv : navsatfixVariance m cfg msg with
      | error reason => exact .rejected reason hf
      | ok variance =>
          rw [fix?, hv] at hf
          cases hf
  | changePublishState data => exact .switched data rfl

theorem handle_of_thinned (hf : fix? m cfg utm e = some f)
    (ht : s.thinned m cfg f.antenna = true) :
    s.handle m cfg utm e = (s.markAdopted f.around.now, none) := by
  rw [handle_of_fix hf, takeFix, if_pos ht]

/-- A fix that is neither thinned out nor without a heading is taken. -/
theorem handle_of_taken (hf : fix? m cfg utm e = some f)
    (ht : s.thinned m cfg f.antenna = false) {yaw : R}
    (hh : (s.headed m cfg e f.antenna).2 = some yaw) : s.handle m cfg utm e =
      ({ (s.headed m cfg e f.antenna).1.markAdopted f.around.now with lastPub := some f.antenna },
        (s.headed m cfg e f.antenna).1.publishOdom m cfg f.around f.stamp f.antenna yaw
          f.variance) := by
  rw [handle_of_fix hf, takeFix, ht, if_neg Bool.false_ne_true, hh]

variable (m cfg utm s e) in
theorem handle_handled : Handled m cfg utm s e (s.handle m cfg utm e) := by
  cases hf : fix? m cfg utm e with
  | none => exact handled_of_none hf
  | some f =>
      cases ht : s.thinned m cfg f.antenna with
      | true =>
          rw [handle_of_thinned hf ht]
          exact .thinnedOut f hf ht
      | false =>
          cases hh : (s.headed m cfg e f.antenna).2 with
          | none =>
              rw [handle_of_fix hf, takeFix, ht, if_neg Bool.false_ne_true, hh]
              exact .unheaded f hf ht hh
          | some yaw =>
              rw [handle_of_taken hf ht hh]
              exact .taken f hf ht yaw hh

section Headed

@[simp] theorem computeHeading_lastPub :
    (s.computeHeading m cfg p).1.lastPub = s.lastPub := by
  unfold computeHeading
  cases s.lastMap with
  | none => rfl
  | some q =>
      dsimp only
      split_ifs <;> rfl

@[simp] theorem computeHeading_publishEnabled :
    (s.computeHeading m cfg p).1.publishEnabled = s.publishEnabled := by
  unfold computeHeading
  cases s.lastMap with
  | none => rfl
  | some q =>
      dsimp only
      split_ifs <;> rfl

/-- A bridge that has used a position and found a heading always has one. -/
theorem computeHeading_of_isSome (hmap : s.lastMap.isSome) (hheading : s.lastHeading.isSome) :
    (s.computeHeading m cfg p).2.isSome := by
  obtain ⟨q, hq⟩ := Option.isSome_iff_exists.mp hmap
  rw [computeHeading, hq]
  dsimp only
  split_ifs
  · rfl
  · exact hheading

/-- A bridge that answers a heading has used a position and found a heading. -/
theorem isSome_of_computeHeading (h : (s.computeHeading m cfg p).2.isSome) :
    (s.computeHeading m cfg p).1.lastMap.isSome ∧
      (s.computeHeading m cfg p).1.lastHeading.isSome := by
  unfold computeHeading at h ⊢
  cases hq : s.lastMap with
  | none =>
      rw [hq] at h
      exact absurd h Bool.false_ne_true
  | some q =>
      rw [hq] at h
      dsimp only at h ⊢
      by_cases hfar : cfg.headingMinDist ≤ m.hypot (p.1 - q.1) (p.2 - q.2)
      · rw [if_pos hfar]
        exact ⟨rfl, rfl⟩
      · rw [if_neg hfar] at h ⊢
        exact ⟨by rw [hq]; rfl, h⟩

/-- The heading is computed from the positions, or read off the message. -/
theorem headed_cases (m : Numerics R) (cfg : NavBridgeConfig R) (e : BridgeEvent R) (p : R × R) :
    (∀ s : NavBridge R, s.headed m cfg e p = s.computeHeading m cfg p) ∨
      ∃ yaw, ∀ s : NavBridge R, s.headed m cfg e p = (s, some yaw) := by
  cases e with
  | navpvt around msg =>
      by_cases hsource : cfg.headingSource = "navpvt"
      · exact .inr ⟨_, fun s => if_pos hsource⟩
      · exact .inl fun s => if_neg hsource
  | navsatfix around msg => exact .inl fun s => rfl
  | changePublishState data => exact .inl fun s => rfl

@[simp] theorem headed_lastPub : (s.headed m cfg e p).1.lastPub = s.lastPub := by
  rcases headed_cases m cfg e p with h | ⟨yaw, h⟩
  · rw [h, computeHeading_lastPub]
  · rw [h]

@[simp] theorem headed_publishEnabled :
    (s.headed m cfg e p).1.publishEnabled = s.publishEnabled := by
  rcases headed_cases m cfg e p with h | ⟨yaw, h⟩
  · rw [h, computeHeading_publishEnabled]
  · rw [h]

/-- The heading stays available for the same fix. -/
theorem headed_again (h : (s.headed m cfg e p).2.isSome)
    (hmap : s'.lastMap = (s.headed m cfg e p).1.lastMap)
    (hheading : s'.lastHeading = (s.headed m cfg e p).1.lastHeading) :
    (s'.headed m cfg e p).2.isSome := by
  rcases headed_cases m cfg e p with hc | ⟨yaw, hc⟩
  · rw [hc] at h hmap hheading ⊢
    obtain ⟨hm, hh⟩ := isSome_of_computeHeading h
    exact computeHeading_of_isSome (hmap ▸ hm) (hheading ▸ hh)
  · rw [hc]
    rfl

variable (m cfg s p) in
omit [FloorRing R] in
theorem publishOdom_isSome (around : Surroundings R) (stamp yaw posVar : R) :
    (s.publishOdom m cfg around stamp p yaw posVar).isSome ↔ s.publishEnabled = true := by
  unfold publishOdom
  cases s.publishEnabled with
  | false => exact iff_of_false Bool.false_ne_true Bool.false_ne_true
  | true => exact iff_of_true rfl rfl

end Headed

end NavBridge

namespace BridgeRun

open NavBridge

def start : BridgeRun R := ⟨.new, []⟩

variable (m : Numerics R) (cfg : NavBridgeConfig R) (utm : R → R → R × R)

/-- An event as a step of a run. -/
def next (w : BridgeRun R) (e : BridgeEvent R) : Option (BridgeRun R) :=
  let r := w.node.handle m cfg utm e
  some ⟨r.1, w.sent ++ if r.2.isSome then ((fix? m cfg utm e).map (·.antenna)).toList else []⟩

/-- The position `q` is at least `min_publish_distance` from `p`. -/
def Apart (p q : R × R) : Prop := cfg.minPubDist ≤ m.hypot (q.1 - p.1) (q.2 - p.2)

/-- The event brings an accepted fix with a heading while the publication is enabled, far enough
from the last message published. -/
def Due (w : BridgeRun R) (e : BridgeEvent R) : Prop :=
  ∃ f, fix? m cfg utm e = some f ∧ (w.node.headed m cfg e f.antenna).2.isSome ∧
    w.node.publishEnabled = true ∧ ∀ l ∈ w.sent.getLast?, Apart m cfg l f.antenna

instance decidableApart (p q : R × R) : Decidable (Apart m cfg p q) :=
  inferInstanceAs (Decidable (_ ≤ _))

instance (w : BridgeRun R) (e : BridgeEvent R) : Decidable (Due m cfg utm w e) :=
  match hf : fix? m cfg utm e with
  | none => isFalse fun ⟨f, hf', _⟩ => by cases hf.symm.trans hf'
  | some f =>
      decidable_of_iff ((w.node.headed m cfg e f.antenna).2.isSome ∧
          w.node.publishEnabled = true ∧ ∀ l ∈ w.sent.getLast?, Apart m cfg l f.antenna)
        ⟨fun h => ⟨f, hf, h⟩, fun ⟨f', hf', h⟩ => by
          obtain rfl := Option.some.inj (hf.symm.trans hf')
          exact h⟩

/-- A fix that is due is published. -/
def DuePublished (w : BridgeRun R) (e : BridgeEvent R) : Prop :=
  Due m cfg utm w e → (w.node.handle m cfg utm e).2.isSome

instance (w : BridgeRun R) (e : BridgeEvent R) : Decidable (DuePublished m cfg utm w e) :=
  inferInstanceAs (Decidable (_ → _))

/-- The event brings an accepted fix with a heading while the publication is disabled, far enough
from the fix that the bridge remembers. -/
def TakenUnsent (w : BridgeRun R) (e : BridgeEvent R) : Prop :=
  0 < cfg.minPubDist ∧ w.node.publishEnabled = false ∧ ∃ f, fix? m cfg utm e = some f ∧
    (w.node.headed m cfg e f.antenna).2.isSome ∧ w.node.thinned m cfg f.antenna = false

variable {m cfg utm} {w w' : BridgeRun R} {e : BridgeEvent R} {es : List (BridgeEvent R)}
  {p : R × R}

/-- The position that the bridge remembers is the one it has published last; nothing depends on it
where no distance is asked for. -/
def Remembers (cfg : NavBridgeConfig R) (w : BridgeRun R) : Prop :=
  cfg.minPubDist ≤ 0 ∨ w.node.lastPub = w.sent.getLast?

omit [FloorRing R] in
theorem not_thinned_iff (hhypot : ∀ x y, 0 ≤ m.hypot x y) (hw : Remembers cfg w) :
    w.node.thinned m cfg p = false ↔ ∀ l ∈ w.sent.getLast?, Apart m cfg l p := by
  rcases hw with hdist | hlast
  · have hapart : ∀ l, Apart m cfg l p := fun l => hdist.trans (hhypot _ _)
    refine iff_of_true ?_ fun l _ => hapart l
    rw [thinned, Option.any_eq_false_iff_get]
    exact fun h => decide_eq_false (not_lt.mpr (hapart _))
  · rw [thinned, hlast]
    cases w.sent.getLast? with
    | none => exact iff_of_true rfl nofun
    | some l =>
        rw [Option.any_some, decide_eq_false_iff_not, not_lt]
        exact ⟨by rintro h _ ⟨⟩; exact h, fun h => h l rfl⟩

/-- What a step does to the published positions. -/
structure Stepped (m : Numerics R) (cfg : NavBridgeConfig R) (w w' : BridgeRun R) : Prop where
  remembers : Remembers cfg w'
  sent : w'.sent = w.sent ∨
    ∃ p, w'.sent = w.sent ++ [p] ∧ ∀ l ∈ w.sent.getLast?, Apart m cfg l p

omit [FloorRing R] in
theorem Stepped.of_unsent (hw : Remembers cfg w) (hpub : w'.node.lastPub = w.node.lastPub)
    (hsent : w'.sent = w.sent) : Stepped m cfg w w' :=
  ⟨hw.imp_right fun h => by rw [hpub, hsent, h], .inl hsent⟩

theorem next_stepped (hhypot : ∀ x y, 0 ≤ m.hypot x y) (hw : Remembers cfg w)
    (he : ¬ TakenUnsent m cfg utm w e) (hn : next m cfg utm w e = some w') :
    Stepped m cfg w w' ∧ DuePublished m cfg utm w e := by
  obtain rfl := Option.some.inj hn
  unfold DuePublished
  have h := handle_handled m cfg utm w.node e
  generalize w.node.handle m cfg utm e = r at h
  cases h with
  | rejected reason hf =>
      refine ⟨.of_unsent hw rfl (List.append_nil _), ?_⟩
      intro hdue
      obtain ⟨f, hf', -⟩ := hdue
      cases hf.symm.trans hf'
  | switched data he =>
      refine ⟨.of_unsent hw rfl (List.append_nil _), ?_⟩
      intro hdue
      obtain ⟨f, hf', -⟩ := hdue
      rw [he] at hf'
      cases hf'
  | thinnedOut f hf ht =>
      refine ⟨.of_unsent hw rfl (List.append_nil _), ?_⟩
      intro hdue
      obtain ⟨f', hf', -, -, hfar⟩ := hdue
      obtain rfl := Option.some.inj (hf.symm.trans hf')
      exact absurd (ht.symm.trans ((not_thinned_iff hhypot hw).mpr hfar)) nofun
  | unheaded f hf ht hh =>
      refine ⟨.of_unsent hw headed_lastPub (List.append_nil _), ?_⟩
      intro hdue
      obtain ⟨f', hf', hsome, -⟩ := hdue
      obtain rfl := Option.some.inj (hf.symm.trans hf')
      rw [hh] at hsome
      exact absurd hsome nofun
  | taken f hf ht yaw hh =>
      by_cases henabled : w.node.publishEnabled = true
      · have hpub := (publishOdom_isSome m cfg (w.node.headed m cfg e f.antenna).1 f.antenna
          f.around f.stamp yaw f.variance).mpr (headed_publishEnabled.trans henabled)
        dsimp only
        rw [if_pos hpub, hf]
        refine ⟨⟨.inr ?_, .inr ⟨f.antenna, rfl, (not_thinned_iff hhypot hw).mp ht⟩⟩, fun _ => hpub⟩
        exact List.getLast?_concat.symm
      · have hdist : cfg.minPubDist ≤ 0 := by
          refine not_lt.mp fun hpos => he ⟨hpos, Bool.not_eq_true _ ▸ henabled, f, hf, ?_, ht⟩
          rw [hh]
          rfl
        have hpub : ¬ (publishOdom m cfg (w.node.headed m cfg e f.antenna).1 f.around f.stamp
            f.antenna yaw f.variance).isSome := by
          rw [publishOdom_isSome, headed_publishEnabled]
          exact henabled
        dsimp only
        rw [if_neg hpub]
        refine ⟨⟨.inl hdist, .inl (List.append_nil _)⟩, ?_⟩
        intro hdue
        obtain ⟨f', -, -, hen, -⟩ := hdue
        exact absurd hen henabled

omit [FloorRing R] in
theorem Stepped.isChain (h : Stepped m cfg w w') (hc : w.sent.IsChain (Apart m cfg)) :
    w'.sent.IsChain (Apart m cfg) := by
  rcases h.sent with hsent | ⟨p, hsent, hfar⟩
  · rw [hsent]
    exact hc
  · rw [hsent, List.isChain_append]
    refine ⟨hc, List.IsChain.singleton p, ?_⟩
    intro l hl q hq
    obtain rfl := Option.some.inj hq
    exact hfar l hl

/-- A fix that is taken while the publication is disabled is left out when it comes again after
the publication has been enabled. -/
theorem not_duePublished_again (hzero : m.hypot 0 0 = 0) (hhypot : ∀ x y, 0 ≤ m.hypot x y)
    (hw : Remembers cfg w) (hr : exec (next m cfg utm) start es = some w)
    (he : TakenUnsent m cfg utm w e) : ¬ Meets (next m cfg utm) (DuePublished m cfg utm) start
      (es ++ [e, .changePublishState true, e]) := by
  obtain ⟨hpos, hdisabled, f, hf, hheaded, hthin⟩ := he
  obtain ⟨yaw, hyaw⟩ := Option.isSome_iff_exists.mp hheaded
  have hunsent : ¬ (publishOdom m cfg (w.node.headed m cfg e f.antenna).1 f.around f.stamp
      f.antenna yaw f.variance).isSome := by
    rw [publishOdom_isSome, headed_publishEnabled, hdisabled]
    exact Bool.false_ne_true
  have hhandle := handle_of_taken hf hthin hyaw
  have hnext : next m cfg utm w e = some
      ⟨{ (w.node.headed m cfg e f.antenna).1.markAdopted f.around.now with
          lastPub := some f.antenna }, w.sent⟩ := by
    rw [next, hhandle]
    dsimp only
    rw [if_neg hunsent, List.append_nil]
  have hon : next m cfg utm ⟨{ (w.node.headed m cfg e f.antenna).1.markAdopted f.around.now with
      lastPub := some f.antenna }, w.sent⟩ (.changePublishState true) = some
      ⟨{ (w.node.headed m cfg e f.antenna).1.markAdopted f.around.now with
          lastPub := some f.antenna, publishEnabled := true }, w.sent⟩ :=
    congrArg (fun sent => some (BridgeRun.mk _ sent)) (List.append_nil w.sent)
  have hrun := exec_snoc (exec_snoc hr hnext) hon
  intro hm
  rw [show es ++ [e, .changePublishState true, e] =
    (es ++ [e] ++ [.changePublishState true]) ++ e :: [] by simp] at hm
  have hpub := hm.at hrun ⟨f, hf, headed_again hheaded rfl rfl, rfl,
    (not_thinned_iff hhypot hw).mp hthin⟩
  -- the bridge remembers the fix it has not sent
  have hnear : thinned m cfg { (w.node.headed m cfg e f.antenna).1.markAdopted f.around.now with
      lastPub := some f.antenna, publishEnabled := true } f.antenna = true := by
    rw [thinned, Option.any_some, sub_self, sub_self, hzero]
    exact decide_eq_true hpos
  rw [handle_of_thinned hf hnear] at hpub
  exact absurd hpub Bool.false_ne_true

/-- The published messages are apart and no due fix is left out in every run in which no fix is
taken while the publication is disabled; a fix that is taken then is left out when it comes again
with the publication enabled. -/
theorem published_as_due (m : Numerics R) (cfg : NavBridgeConfig R) (utm : R → R → R × R)
    (hhypot : ∀ x y, 0 ≤ m.hypot x y) (hzero : m.hypot 0 0 = 0) (es : List (BridgeEvent R))
    (w : BridgeRun R) (hr : exec (next m cfg utm) start es = some w)
    (hm : Meets (next m cfg utm) (fun w e => ¬ TakenUnsent m cfg utm w e) start es) :
    w.sent.IsChain (Apart m cfg) ∧
      Meets (next m cfg utm) (DuePublished m cfg utm) start es ∧
      ∀ e, TakenUnsent m cfg utm w e →
        ¬ Meets (next m cfg utm) (DuePublished m cfg utm) start
          (es ++ [e, .changePublishState true, e]) := by
  have hstart : Remembers cfg (start : BridgeRun R) := .inr rfl
  have hstep : ∀ w e w', Remembers cfg w ∧ w.sent.IsChain (Apart m cfg) →
      ¬ TakenUnsent m cfg utm w e → next m cfg utm w e = some w' →
      Remembers cfg w' ∧ w'.sent.IsChain (Apart m cfg) := by
    intro w e w' hinv he hn
    obtain ⟨hrem, hchain⟩ := hinv
    have h := (next_stepped hhypot hrem he hn).1
    exact ⟨h.remembers, h.isChain hchain⟩
  obtain ⟨hrem, hchain⟩ := invariant hstep ⟨hstart, List.IsChain.nil⟩ hm hr
  refine ⟨hchain, ?_, fun e he => not_duePublished_again hzero hhypot hrem hr he⟩
  exact meets_of_invariant (I := fun w => Remembers cfg w ∧ w.sent.IsChain (Apart m cfg)) hstep
    (fun w e h he => (next_stepped hhypot h.1 he rfl).2) ⟨hstart, List.IsChain.nil⟩ hm

section StraightTrack

/-- The receiver's own heading, one metre between the messages. -/
def receiverConfig : NavBridgeConfig ℚ := { NavBridgeConfig.defaults with headingSource := "navpvt" }

/-- A flat projection, in which a step of the receiver's longitude is a metre. -/
def flatUtm (lat lon : ℚ) : ℚ × ℚ := (lon * 10 ^ 7, lat * 10 ^ 7)

/-- An RTK fix of a receiver that moves east, `x` metres from the anchor. -/
def fixAt (x : Int) : BridgeEvent ℚ := .navpvt ⟨0, none⟩ ⟨0x81, 3, 20, 0, x, 9000000⟩

/-- Two fixes two metres apart. -/
theorem published_as_due_straight :
    (∀ x y : ℚ, 0 ≤ Numerics.axis.hypot x y) ∧
      Meets (next .axis receiverConfig flatUtm)
        (fun w e => ¬ TakenUnsent .axis receiverConfig flatUtm w e) start [fixAt 0, fixAt 2] ∧
      ∃ w, exec (next .axis receiverConfig flatUtm) start [fixAt 0, fixAt 2] = some w ∧
        w.sent.IsChain (Apart .axis receiverConfig) := by
  have hhypot : ∀ x y : ℚ, 0 ≤ Numerics.axis.hypot x y := fun x y =>
    div_nonneg (Nat.cast_nonneg _) (Nat.cast_nonneg _)
  have hm : Meets (next .axis receiverConfig flatUtm)
      (fun w e => ¬ TakenUnsent .axis receiverConfig flatUtm w e) start [fixAt 0, fixAt 2] := by
    refine ⟨fun h => absurd h.2.1 (by decide), ?_⟩
    rintro w ⟨⟩
    exact ⟨fun h => absurd h.2.1 (by decide +kernel), fun _ _ => trivial⟩
  exact ⟨hhypot, hm, _, rfl, (published_as_due .axis receiverConfig flatUtm hhypot (by decide +kernel)
    [fixAt 0, fixAt 2] _ rfl hm).1⟩

/-- A fix is taken at two metres while the publication is disabled. The next one at the same place
is left out, although nothing has been published within two metres, and after it one is published
where the last message was. -/
theorem unsent_fix_remembered :
    let es := [fixAt 0, .changePublishState false, fixAt 2, .changePublishState true, fixAt 2,
      fixAt 0]
    (∃ w, exec (next .axis receiverConfig flatUtm) start es = some w ∧
      ¬ w.sent.IsChain (Apart .axis receiverConfig)) ∧
    ¬ Meets (next .axis receiverConfig flatUtm) (DuePublished .axis receiverConfig flatUtm)
      start es := by
  exact ⟨exists_exec (by decide +kernel), by decide +kernel⟩

end StraightTrack

end BridgeRun

end MgRobot.Slam
