import SceneExport.Description.Object
import SceneExport.Export.Session

/-!
# Descriptions of scenes

A scene with its files (`Session.ofDatum`), and the settings of an export (`Settings.ofDatum`).
-/

namespace SceneExport

instance : Readable Image := ⟨fun d => do
  return { name := ← d.get "name" "", format := ← d.get "format" "PNG", path := ← d.get "path" "",
           packed := d.isSet "packed" false }⟩

def Material.ofDatum (images : Nat) (d : Datum) : Except Failure (Material Number) := do
  return { name := ← d.get "name" ""
           tree := ← (d.field? "node_tree").mapM (NodeTree.ofDatum images),
           diffuse := ← d.get "diffuse" [0.8, 0.8, 0.8, 1], metallic := ← d.get "metallic" 0,
           specular := ← d.get "specular" 0.5, roughness := ← d.get "roughness" 0.4 }

instance : Readable Version := ⟨fun d => do
  let numbers : List Nat ← d.as (List Nat)
  return ⟨numbers.getD 0 0, numbers.getD 1 0, numbers.getD 2 0⟩⟩

def SceneSizes.ofDatum (d : Datum) : Except Failure SceneSizes := do
  let size (name : String) : Except Failure Nat :=
    return (← (d.all name : Except Failure (List Datum))).length
  return { images := ← size "images", materials := ← size "materials", actions := ← size "actions",
           meshes := ← size "meshes", objects := ← size "objects" }

def Scene.ofDatum (d : Datum) : Except Failure (Scene Number) := do
  let s := (d.field? "scene").getD .nothing
  let sizes ← SceneSizes.ofDatum d
  let materials ← (← d.all "materials").mapM (Material.ofDatum sizes.images)
  let meshes ← (← d.all "meshes").mapM (Mesh.ofDatum sizes.actions sizes.materials)
  let objects ← (← d.all "objects").zipIdx.mapM fun (o, i) => Object.ofDatum sizes i o
  return { name := ← s.get "name" "Scene"
           timing := { start := ← s.get "frame_start" 1, fps := ← s.get "fps" 24 }
           frame := ← s.get "frame_current" 1
           engine := ← s.get "engine" "CYCLES"
           version := ← d.get "version" {}
           active := ← s.position? "active" sizes.objects
           images := ← d.get "images" #[]
           actions := ← d.get "actions" #[]
           materials := materials.toArray
           meshes := meshes.toArray
           objects := objects.toArray }

def Session.ofDatum (d : Datum) : Except Failure (Session Number) := do
  let files ← ((d.field? "files").elim [] Datum.entries).mapM fun (path, text) =>
    return (path, ← text.word)
  return { scene := ← Scene.ofDatum d, files := .ofEntries files }

def Settings.ofDatum (start : Settings) (d : Datum) : Except Failure Settings := do
  let turned := (bezierSwitch :: switches).foldl (fun s w =>
    (d.entry? w.name).elim s fun v => w.turn s v.isOn) start
  let chosen := choices.foldl (fun s c =>
    (d.entry? c.name).elim s fun v => c.choose s (v.word.toOption.getD "")) turned
  return { chosen with objectTypes := ← d.get "object_types" chosen.objectTypes }

end SceneExport
