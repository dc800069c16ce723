/-!
Which characters show as emoji, and names of common emoji.

A character of `presentationRanges` shows as an emoji by itself, one of `textDefaultRanges` only
before a variation selector.
-/

namespace JsxAudit.Label

/-- Inclusive ranges of the characters shown as emoji by default. -/
def presentationRanges : Array (Nat × Nat) := #[
  (0x231a, 0x231b), (0x23e9, 0x23ec), (0x23f0, 0x23f0), (0x23f3, 0x23f3), (0x25fd, 0x25fe), (0x2614, 0x2615),
  (0x2648, 0x2653), (0x267f, 0x267f), (0x2693, 0x2693), (0x26a1, 0x26a1), (0x26aa, 0x26ab), (0x26bd, 0x26be),
  (0x26c4, 0x26c5), (0x26ce, 0x26ce), (0x26d4, 0x26d4), (0x26ea, 0x26ea), (0x26f2, 0x26f3), (0x26f5, 0x26f5),
  (0x26fa, 0x26fa), (0x26fd, 0x26fd), (0x2705, 0x2705), (0x270a, 0x270b), (0x2728, 0x2728), (0x274c, 0x274c),
  (0x274e, 0x274e), (0x2753, 0x2755), (0x2757, 0x2757), (0x2795, 0x2797), (0x27b0, 0x27b0), (0x27bf, 0x27bf),
  (0x2b1b, 0x2b1c), (0x2b50, 0x2b50), (0x2b55, 0x2b55), (0x1f300, 0x1f64f), (0x1f680, 0x1f6ff), (0x1f7e0, 0x1f7eb),
  (0x1f90c, 0x1f9ff), (0x1fa70, 0x1faff)]

/-- Inclusive ranges of the characters shown as emoji before a variation selector. -/
def textDefaultRanges : Array (Nat × Nat) := #[
  (0xa9, 0xa9), (0xae, 0xae), (0x203c, 0x203c), (0x2049, 0x2049), (0x2122, 0x2122), (0x2139, 0x2139),
  (0x2194, 0x2199), (0x21a9, 0x21aa), (0x2328, 0x2328), (0x23cf, 0x23cf), (0x23ed, 0x23ef), (0x23f1, 0x23f2),
  (0x23f8, 0x23fa), (0x24c2, 0x24c2), (0x25aa, 0x25ab), (0x25b6, 0x25b6), (0x25c0, 0x25c0), (0x25fb, 0x25fc),
  (0x2600, 0x2604), (0x260e, 0x260e), (0x2611, 0x2611), (0x2618, 0x2618), (0x261d, 0x261d), (0x2620, 0x2620),
  (0x2622, 0x2623), (0x2626, 0x2626), (0x262a, 0x262a), (0x262e, 0x262f), (0x2638, 0x263a), (0x2640, 0x2640),
  (0x2642, 0x2642), (0x265f, 0x2660), (0x2663, 0x2663), (0x2665, 0x2666), (0x2668, 0x2668), (0x267b, 0x267b),
  (0x267e, 0x267e), (0x2692, 0x2692), (0x2694, 0x2697), (0x2699, 0x2699), (0x269b, 0x269c), (0x26a0, 0x26a0),
  (0x26a7, 0x26a7), (0x26b0, 0x26b1), (0x26c8, 0x26c8), (0x26cf, 0x26cf), (0x26d1, 0x26d1), (0x26d3, 0x26d3),
  (0x26e9, 0x26e9), (0x26f0, 0x26f1), (0x26f4, 0x26f4), (0x26f7, 0x26f9), (0x2702, 0x2702), (0x2708, 0x2709),
  (0x270c, 0x270d), (0x270f, 0x270f), (0x2712, 0x2712), (0x2714, 0x2714), (0x2716, 0x2716), (0x271d, 0x271d),
  (0x2721, 0x2721), (0x2733, 0x2734), (0x2744, 0x2744), (0x2747, 0x2747), (0x2763, 0x2764), (0x27a1, 0x27a1),
  (0x2934, 0x2935), (0x2b05, 0x2b07), (0x3030, 0x3030), (0x303d, 0x303d), (0x3297, 0x3297), (0x3299, 0x3299)]

/-- Names by the code points of the emoji. -/
def emojiNames : List (List Nat × String) := [
  ([0x1f600], "grinning face"),
  ([0x1f601], "beaming face with smiling eyes"),
  ([0x1f602], "face with tears of joy"),
  ([0x1f603], "grinning face with big eyes"),
  ([0x1f604], "grinning face with smiling eyes"),
  ([0x1f605], "grinning face with sweat"),
  ([0x1f606], "grinning squinting face"),
  ([0x1f609], "winking face"),
  ([0x1f60a], "smiling face with smiling eyes"),
  ([0x1f60d], "smiling face with heart-eyes"),
  ([0x1f60e], "smiling face with sunglasses"),
  ([0x1f60f], "smirking face"),
  ([0x1f612], "unamused face"),
  ([0x1f614], "pensive face"),
  ([0x1f618], "face blowing a kiss"),
  ([0x1f621], "pouting face"),
  ([0x1f622], "crying face"),
  ([0x1f62d], "loudly crying face"),
  ([0x1f62e], "face with open mouth"),
  ([0x1f631], "face screaming in fear"),
  ([0x1f633], "flushed face"),
  ([0x1f634], "sleeping face"),
  ([0x1f637], "face with medical mask"),
  ([0x1f914], "thinking face"),
  ([0x1f923], "rolling on the floor laughing"),
  ([0x1f929], "star-struck"),
  ([0x1f970], "smiling face with hearts"),
  ([0x1f973], "partying face"),
  ([0x1f44d], "thumbs up"),
  ([0x1f44e], "thumbs down"),
  ([0x1f44f], "clapping hands"),
  ([0x1f44b], "waving hand"),
  ([0x1f4aa], "flexed biceps"),
  ([0x1f64f], "folded hands"),
  ([0x270c, 0xfe0f], "victory hand"),
  ([0x1f91d], "handshake"),
  ([0x1f44c], "OK hand"),
  ([0x270d, 0xfe0f], "writing hand"),
  ([0x2764, 0xfe0f], "red heart"),
  ([0x1f494], "broken heart"),
  ([0x1f495], "two hearts"),
  ([0x1f496], "sparkling heart"),
  ([0x1f499], "blue heart"),
  ([0x1f49a], "green heart"),
  ([0x1f49b], "yellow heart"),
  ([0x1f49c], "purple heart"),
  ([0x1f5a4], "black heart"),
  ([0x1f90d], "white heart"),
  ([0x1f9e1], "orange heart"),
  ([0x1f525], "fire"),
  ([0x2b50], "star"),
  ([0x1f31f], "glowing star"),
  ([0x2600, 0xfe0f], "sun"),
  ([0x1f308], "rainbow"),
  ([0x26a1], "high voltage"),
  ([0x1f4a7], "droplet"),
  ([0x2744, 0xfe0f], "snowflake"),
  ([0x1f33a], "hibiscus"),
  ([0x1f339], "rose"),
  ([0x1f335], "cactus"),
  ([0x1f343], "leaf fluttering in wind"),
  ([0x1f436], "dog face"),
  ([0x1f431], "cat face"),
  ([0x1f98b], "butterfly"),
  ([0x1f680], "rocket"),
  ([0x2705], "check mark"),
  ([0x274c], "cross mark"),
  ([0x26a0, 0xfe0f], "warning"),
  ([0x1f6a8], "police car light"),
  ([0x1f4a1], "light bulb"),
  ([0x1f389], "party popper"),
  ([0x1f381], "wrapped gift"),
  ([0x1f3af], "bullseye"),
  ([0x1f3c6], "trophy"),
  ([0x1f4e2], "loudspeaker"),
  ([0x1f514], "bell"),
  ([0x1f4cc], "pushpin"),
  ([0x1f4dd], "memo"),
  ([0x1f4da], "books"),
  ([0x1f4bb], "laptop"),
  ([0x1f4f1], "mobile phone"),
  ([0x1f510], "locked with key"),
  ([0x1f512], "locked"),
  ([0x1f513], "unlocked"),
  ([0x1f504], "counterclockwise arrows"),
  ([0x1f4b0], "money bag"),
  ([0x1f3e0], "house"),
  ([0x1f4e7], "e-mail"),
  ([0x2615], "hot beverage"),
  ([0x1f355], "pizza"),
  ([0x1f382], "birthday cake"),
  ([0x1f37a], "beer mug"),
  ([0x1f377], "wine glass"),
  ([0x2728], "sparkles"),
  ([0x1f4af], "hundred points"),
  ([0x1f4a5], "collision"),
  ([0x1f4ab], "dizzy"),
  ([0x1f440], "eyes"),
  ([0x1f4ac], "speech balloon"),
  ([0x23f0], "alarm clock"),
  ([0x1f30d], "globe showing Europe-Africa"),
  ([0x1f30e], "globe showing Americas"),
  ([0x1f30f], "globe showing Asia-Australia")]

end JsxAudit.Label
