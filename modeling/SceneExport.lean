import SceneExport.Description.Reader
import SceneExport.Description.Scene
import SceneExport.Description.Value
import SceneExport.Export.Operator
import SceneExport.Shader.Head
import SceneExport.Shader.Lookup
import SceneExport.Proofs.Shader.Declared
import SceneExport.Proofs.Shader.Search
import SceneExport.Proofs.Mesh.Morph
import SceneExport.Proofs.Mesh.Reuse
import SceneExport.Proofs.Mesh.Weights
import SceneExport.Proofs.Animation.Runs
import SceneExport.Proofs.Export.Anchors
import SceneExport.Proofs.Export.Players
import SceneExport.Proofs.Material.Complaint
import SceneExport.Proofs.Material.Nearest
import SceneExport.Proofs.File.Walks
import SceneExport.Proofs.Export.Targets
import SceneExport.Proofs.Armature.Baked
import SceneExport.Proofs.Animation.Poses
import SceneExport.Proofs.Export.Collision
import SceneExport.Proofs.Animation.Stripped
import SceneExport.Proofs.Animation.Stretched
import SceneExport.Proofs.Animation.HeldValues
import SceneExport.Proofs.Animation.Restored
import SceneExport.Proofs.Animation.Table
import SceneExport.Proofs.Animation.Unordered
import SceneExport.Proofs.File.Headings
import SceneExport.Proofs.Animation.DataPaths
import SceneExport.Proofs.File.Relative
