import UnifiedSearch.Media.DB8Source

/-!
# `MediaPlugin`

The search set of the audio files: one kind of the media database, found by
title and by artist.
-/

namespace UnifiedSearch

open Lib

def DB8Category.generateIntent (_language name : String) (item : SearchItem) : Option Intent :=
  some {
    category := name
    action := "view"
    uri := item.key
    display := item.display
    extra := item.extra }

namespace MediaPlugin

def audioKind : JValue :=
  (JValue.object.put "kind" (.str "com.webos.service.mediaindexer.audio:1")).put "targets"
    ((JValue.array.append (.str "title")).append (.str "artist"))

def source : DB8Source :=
  (({ id := "db8", db := "com.webos.mediadb" } : DB8Source).addKind
    "mediaindexer.audio" audioKind).2

/-- The constructor: the set of the plugin, which is not attached yet. -/
def make (env : Env) (w : Service) : SearchSetPtr × Service :=
  let (audio, categories) := w.categories.alloc {
    id := "mediaindexer.audio"
    name := "Audio Files"
    generateIntent := DB8Category.generateIntent }
  let (searchSet, sets) := w.sets.alloc { id := "Media", source := fun _ _ => [] }
  (searchSet, ({ w with categories, sets }.addCategory env searchSet audio).2)

end MediaPlugin

end UnifiedSearch
