/-!
# Command.Example — a program to begin with

The text is what a program file looks like: two classes, and the tests that cover the lines of one of
them.
-/

namespace StackMutants

def exampleProgram : String :=
"# Classes to mutate and the tests covering each line
classes:
  - name: com/example/Calculator
    methods:
      - name: add
        descriptor: (II)I
        instructions:
          - opcode: !Load Int
            operand: !Var 1
            line: 3
          - opcode: !Load Int
            operand: !Var 2
            line: 3
          - opcode: !Arith [Add, Int]
            line: 3
          - opcode: !Return Int
            line: 3
      - name: isPositive
        descriptor: (I)Z
        instructions:
          - opcode: !Load Int
            operand: !Var 1
            line: 6
          - opcode: !If Le
            operand: !Label 0
            line: 6
          - opcode: Const
            operand: !Int 1
            line: 7
          - opcode: !Return Int
            line: 7
          - opcode: Label
            operand: !Label 0
          - opcode: Const
            operand: !Int 0
            line: 8
          - opcode: !Return Int
            line: 8
  - name: com/example/Greeter
    methods:
      - name: greet
        descriptor: (Lcom/example/Person;)Ljava/lang/String;
        instructions:
          - opcode: !Load Ref
            operand: !Var 1
            line: 12
          - opcode: GetField
            operand: !Field
              owner: com/example/Person
              name: name
              descriptor: Ljava/lang/String;
            line: 12
          - opcode: !Return Ref
            line: 12

coverage:
  - class: com/example/Calculator
    line: 3
    tests:
      - name: testAdd
        defining_class: com/example/CalculatorTest
        time_ms: 5
  - class: com/example/Calculator
    line: 6
    tests:
      - name: testIsPositive
        defining_class: com/example/CalculatorTest
        time_ms: 2
      - name: testSign
        defining_class: com/example/SignTest
        time_ms: 2
  - class: com/example/Calculator
    line: 7
    tests:
      - name: testIsPositive
        defining_class: com/example/CalculatorTest
        time_ms: 2
"

end StackMutants
